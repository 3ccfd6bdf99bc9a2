import CppMyth.Json.Numeral

/-! What the parser of `sajson.h` computes: a reader that consumes the text and builds the nodes,
without the words and the places in memory. -/
namespace CppMyth.Sajson
open JSON (Node)

/-- Why a text is not accepted. -/
inductive Stop where
  | undefined
  | rejected
  deriving DecidableEq, Repr

/-- What was read, and the text behind it. -/
abbrev Scan (α : Type) := Except Stop (α × List UInt8)

/-- A structure that is not closed yet. -/
inductive Container where
  | array (elements : List Node)
  | object (fields : List (List UInt8 × Node))

namespace Container

def kind : Container → ValueType
  | array _ => .ARRAY
  | object _ => .OBJECT

def closing : Container → UInt8
  | array _ => 93
  | object _ => 125

def length : Container → Nat
  | array elements => elements.length
  | object fields => fields.length

/-- The key is that of a field. -/
def push (key : List UInt8) (value : Node) : Container → Container
  | array elements => array (elements ++ [value])
  | object fields => object (fields ++ [(key, value)])

def node : Container → Node
  | array elements => .array elements
  | object fields => .object fields

theorem closing_of_kind {c : Container} (object : c.kind = .OBJECT) : c.closing = 125 := by
  cases c with
  | array elements => cases object
  | object fields => rfl

@[simp] theorem length_push (key : List UInt8) (value : Node) (c : Container) :
    (c.push key value).length = c.length + 1 := by
  cases c <;> simp [push, length]

@[simp] theorem kind_push (key : List UInt8) (value : Node) (c : Container) :
    (c.push key value).kind = c.kind := by
  cases c <;> rfl

end Container

def blanked (c : UInt8) : UInt8 := if c < 0x20 then 0x20 else c

def scanHex : Nat → UInt32 → List UInt8 → Scan UInt32
  | 0, v, rest => .ok (v, rest)
  | _ + 1, _, [] => .error .rejected
  | i + 1, v, c :: rest =>
    match hexDigit c with
    | none => .error .rejected
    | some d => scanHex i ((v <<< 4) + d) rest

def scanTrail (u : UInt32) (rest : List UInt8) : Scan UInt32 :=
  if rest.take 2 ≠ [backslash, 117] then .error .rejected
  else match scanHex 4 0 (rest.drop 2) with
    | .error stop => .error stop
    | .ok (v, behind) =>
      if v < 0xDC00 ∨ v > 0xDFFF then .error .rejected else .ok (surrogates u v, behind)

def scanUnicode (rest : List UInt8) : Scan UInt32 :=
  match scanHex 4 0 rest with
  | .error stop => .error stop
  | .ok (u, behind) => if 0xD800 ≤ u ∧ u ≤ 0xDBFF then scanTrail u behind else .ok (u, behind)

theorem except_map_ok {ε α β : Type} {f : α → β} {x : Except ε α} {b : β}
    (h : x.map f = .ok b) : ∃ a, x = .ok a ∧ f a = b := by
  cases x with
  | error stop => cases h
  | ok a => exact ⟨a, rfl, Except.ok.inj h⟩

/-- What an escape stands for, from behind its backslash. -/
def scanEscape : List UInt8 → Scan (List UInt8)
  | [] => .error .rejected
  | e :: rest =>
    match replacement e with
    | some r => .ok ([r], rest)
    | none => if e = 117 then (scanUnicode rest).map fun (u, behind) => (writeUtf8 u, behind)
      else .error .rejected

theorem scanHex_suffix {i : Nat} {v u : UInt32} {rest behind : List UInt8}
    (h : scanHex i v rest = .ok (u, behind)) :
    behind <:+ rest ∧ behind.length + i = rest.length := by
  induction i generalizing v rest with
  | zero =>
    cases h
    exact ⟨List.suffix_refl _, rfl⟩
  | succ i ih =>
    cases rest with
    | nil => cases h
    | cons c rest =>
      rw [scanHex] at h
      split at h
      · cases h
      · obtain ⟨tail, length⟩ := ih h
        exact ⟨tail.trans (List.suffix_cons c rest), by simp only [List.length_cons]; omega⟩

theorem scanTrail_suffix {u v : UInt32} {rest behind : List UInt8}
    (h : scanTrail u rest = .ok (v, behind)) : behind <:+ rest := by
  unfold scanTrail at h
  split at h
  · cases h
  · split at h
    · cases h
    · rename_i hex
      split at h
      · cases h
      · cases h
        exact (scanHex_suffix hex).1.trans (List.drop_suffix 2 rest)

theorem scanUnicode_suffix {u : UInt32} {rest behind : List UInt8}
    (h : scanUnicode rest = .ok (u, behind)) :
    behind <:+ rest ∧ behind.length + 4 ≤ rest.length := by
  unfold scanUnicode at h
  split at h
  · cases h
  · rename_i hex
    obtain ⟨tail, length⟩ := scanHex_suffix hex
    split at h
    · have further := scanTrail_suffix h
      have shorter := further.length_le
      exact ⟨further.trans tail, by omega⟩
    · cases h
      exact ⟨tail, length.le⟩

theorem length_writeUtf8 (u : UInt32) : 0 < (writeUtf8 u).length ∧ (writeUtf8 u).length ≤ 4 := by
  unfold writeUtf8
  split_ifs <;> simp

/-- An escape is longer than what it stands for. -/
theorem scanEscape_suffix {rest bytes behind : List UInt8}
    (h : scanEscape rest = .ok (bytes, behind)) :
    behind <:+ rest ∧ 0 < bytes.length ∧ bytes.length + behind.length ≤ rest.length := by
  cases rest with
  | nil => cases h
  | cons e rest =>
    rw [scanEscape] at h
    split at h
    · cases h
      exact ⟨List.suffix_cons e _, by simp, by simp [Nat.add_comm]⟩
    · split at h
      · obtain ⟨⟨u, after⟩, read, same⟩ := except_map_ok h
        cases same
        obtain ⟨tail, length⟩ := scanUnicode_suffix read
        obtain ⟨positive, small⟩ := length_writeUtf8 u
        refine ⟨tail.trans (List.suffix_cons e rest), positive, ?_⟩
        simp only [List.length_cons]
        omega
      · cases h

/-- A string from behind its first quotation mark. -/
def scanString : List UInt8 → Scan (List UInt8)
  | [] => .error .rejected
  | c :: rest =>
    if c = quote then .ok ([], rest)
    else if c = backslash then
      match h : scanEscape rest with
      | .error stop => .error stop
      | .ok (bytes, behind) =>
        have : behind.length < rest.length := by
          have := scanEscape_suffix h
          omega
        (scanString behind).map fun (content, behind) => (bytes ++ content, behind)
    else (scanString rest).map fun (content, behind) => (blanked c :: content, behind)
  termination_by rest => rest.length

theorem scanString_cons (c : UInt8) (rest : List UInt8) :
    scanString (c :: rest) =
      if c = quote then .ok ([], rest)
      else if c = backslash then
        match scanEscape rest with
        | .error stop => .error stop
        | .ok (bytes, behind) =>
          (scanString behind).map fun (content, behind) => (bytes ++ content, behind)
      else (scanString rest).map fun (content, behind) => (blanked c :: content, behind) := by
  rw [scanString]
  congr 2
  split <;> rename_i read <;> simp only [read]

def Number.node : Number → Node
  | integer i => .integer i
  | double d => .double d

def scanNumeral (rest : List UInt8) : Scan Node :=
  match scanNumber rest with
  | .error .undefined => .error .undefined
  | .error (.error _ _) => .error .rejected
  | .ok (number, behind) => .ok (number.node, behind)

def scanLiteral (word : List UInt8) (value : Node) (rest : List UInt8) : Scan Node :=
  if word <+: rest then .ok (value, rest.drop word.length) else .error .rejected

def skipBlanks (rest : List UInt8) : List UInt8 := rest.dropWhile isBlank

/-- A value that is no structure. -/
def scanScalar : List UInt8 → Scan Node
  | [] => .error .rejected
  | c :: rest =>
    if c = 110 then scanLiteral (ascii "null") .null (c :: rest)
    else if c = 102 then scanLiteral (ascii "false") (.boolean false) (c :: rest)
    else if c = 116 then scanLiteral (ascii "true") (.boolean true) (c :: rest)
    else if isdigit c ∨ c = 45 then scanNumeral (c :: rest)
    else if c = quote then
      (scanString rest).map fun (content, behind) => (.string content, behind)
    else .error .rejected

theorem skipBlanks_suffix (rest : List UInt8) : skipBlanks rest <:+ rest := List.dropWhile_suffix _

theorem scanString_suffix {rest content behind : List UInt8}
    (h : scanString rest = .ok (content, behind)) :
    behind <:+ rest ∧ behind.length < rest.length := by
  fun_induction scanString rest generalizing content behind with
  | case1 => cases h
  | case2 rest =>
    cases h
    exact ⟨List.suffix_cons _ _, by simp⟩
  | case3 c rest _ stop => cases h
  | case4 rest bytes after escape _ _ ih =>
    obtain ⟨found, read, same⟩ := except_map_ok h
    cases same
    obtain ⟨tail, length⟩ := ih read
    refine ⟨(tail.trans (scanEscape_suffix escape).1).trans (List.suffix_cons _ rest), ?_⟩
    simp only [List.length_cons]
    omega
  | case5 c rest _ _ ih =>
    obtain ⟨found, read, same⟩ := except_map_ok h
    cases same
    obtain ⟨tail, length⟩ := ih read
    refine ⟨tail.trans (List.suffix_cons c rest), ?_⟩
    simp only [List.length_cons]
    omega

theorem scanNumeral_ok {value : Node} {rest behind : List UInt8}
    (h : scanNumeral rest = .ok (value, behind)) :
    ∃ number, scanNumber rest = .ok (number, behind) ∧ value = number.node := by
  unfold scanNumeral at h
  split at h
  · cases h
  · cases h
  · rename_i number after read
    cases h
    exact ⟨number, read, rfl⟩

theorem scanLiteral_suffix {word rest behind : List UInt8} {node value : Node} (some : word ≠ [])
    (h : scanLiteral word node rest = .ok (value, behind)) :
    behind <:+ rest ∧ behind.length < rest.length := by
  unfold scanLiteral at h
  split at h
  · rename_i front
    cases h
    have length := front.length_le
    have positive := List.length_pos_iff.mpr some
    refine ⟨List.drop_suffix _ _, ?_⟩
    rw [List.length_drop]
    omega
  · cases h

theorem scanScalar_suffix {rest behind : List UInt8} {value : Node}
    (h : scanScalar rest = .ok (value, behind)) :
    behind <:+ rest ∧ behind.length < rest.length := by
  cases rest with
  | nil => cases h
  | cons c rest =>
    rw [scanScalar] at h
    split at h
    · exact scanLiteral_suffix (by decide) h
    split at h
    · exact scanLiteral_suffix (by decide) h
    split at h
    · exact scanLiteral_suffix (by decide) h
    split at h
    · rename_i first
      obtain ⟨number, read, -⟩ := scanNumeral_ok h
      have tail := (scanNumber_suffix first read).1
      exact ⟨tail.trans (List.suffix_cons c rest), Nat.lt_succ_of_le tail.length_le⟩
    split at h
    · obtain ⟨found, read, same⟩ := except_map_ok h
      cases same
      obtain ⟨tail, length⟩ := scanString_suffix read
      exact ⟨tail.trans (List.suffix_cons c rest), Nat.lt_succ_of_lt length⟩
    · cases h

/-- A structure around the one that is read, with the key that waits for its value there. -/
structure Hole where
  container : Container
  key : List UInt8

structure Reader where
  current : Container
  above : List Hole
  rest : List UInt8

namespace Reader

/-- How a turn goes on. -/
inductive Turn where
  | again (r : Reader)
  | done (node : Node)

/-- The comma in front of an element. -/
def scanComma (c : Container) (rest : List UInt8) : Scan Bool :=
  if c.length = 0 then
    if rest.headD 0 = 44 then .error .rejected else .ok (false, rest)
  else if rest.headD 0 = 44 then .ok (true, skipBlanks rest.tail)
  else if rest.headD 0 ≠ c.closing then .error .rejected
  else .ok (false, rest)

/-- The colon behind a key. -/
def scanColon (key : List UInt8) (rest : List UInt8) : Scan (List UInt8) :=
  if rest.headD 0 ≠ 58 then .error .rejected else .ok (key, rest.tail)

def scanKey (c : Container) (rest : List UInt8) : Scan (List UInt8) :=
  if c.kind = .OBJECT ∧ rest.headD 0 ≠ 125 then
    if rest.headD 0 ≠ quote then .error .rejected
    else match scanString rest.tail with
      | .error stop => .error stop
      | .ok (key, behind) => scanColon key (skipBlanks behind)
  else .ok ([], rest)

/-- The node of a structure that is closed goes to the hole above it. -/
def close (hadComma : Bool) (current : Container) (above : List Hole) (rest : List UInt8) :
    Except Stop Turn :=
  if hadComma then .error .rejected
  else match above with
    | [] => if (skipBlanks rest).headD 0 = 0 then .ok (.done current.node) else .error .rejected
    | hole :: above => .ok (.again ⟨hole.container.push hole.key current.node, above, rest⟩)

/-- What stands behind the comma and the key. -/
def element (r : Reader) (hadComma : Bool) (key : List UInt8) : List UInt8 → Except Stop Turn
  | [] => .error .rejected
  | c :: rest =>
    if c = 91 then .ok (.again ⟨.array [], ⟨r.current, key⟩ :: r.above, rest⟩)
    else if c = 123 then .ok (.again ⟨.object [], ⟨r.current, key⟩ :: r.above, rest⟩)
    else if c = 93 ∨ c = 125 then
      if c = r.current.closing then close hadComma r.current r.above rest else .error .rejected
    else (scanScalar (c :: rest)).map fun (value, behind) =>
      .again ⟨r.current.push key value, r.above, behind⟩

def turn (r : Reader) : Except Stop Turn :=
  match scanComma r.current (skipBlanks r.rest) with
  | .error stop => .error stop
  | .ok (hadComma, rest) =>
    match scanKey r.current rest with
    | .error stop => .error stop
    | .ok (key, rest) => r.element hadComma key (skipBlanks rest)

theorem scanComma_suffix {c : Container} {rest behind : List UInt8} {comma : Bool}
    (h : scanComma c rest = .ok (comma, behind)) : behind <:+ rest := by
  unfold scanComma at h
  split at h
  · split at h
    · cases h
    · cases h
      exact List.suffix_refl _
  · split at h
    · cases h
      exact (skipBlanks_suffix _).trans (List.tail_suffix _)
    · split at h
      · cases h
      · cases h
        exact List.suffix_refl _

theorem scanKey_suffix {c : Container} {rest key behind : List UInt8}
    (h : scanKey c rest = .ok (key, behind)) : behind <:+ rest := by
  unfold scanKey at h
  split at h
  · split at h
    · cases h
    · split at h
      · cases h
      · rename_i read
        unfold scanColon at h
        split at h
        · cases h
        · cases h
          exact (((List.tail_suffix _).trans (skipBlanks_suffix _)).trans
            (scanString_suffix read).1).trans (List.tail_suffix _)
  · cases h
    exact List.suffix_refl _

theorem element_shorter {r r' : Reader} {hadComma : Bool} {key rest : List UInt8}
    (h : r.element hadComma key rest = .ok (.again r')) : r'.rest.length < rest.length := by
  cases rest with
  | nil => cases h
  | cons c rest =>
    rw [element] at h
    split at h
    · cases h
      exact Nat.lt_succ_self _
    split at h
    · cases h
      exact Nat.lt_succ_self _
    split at h
    · split at h
      · unfold close at h
        split at h
        · cases h
        split at h
        · split at h <;> cases h
        · cases h
          exact Nat.lt_succ_self _
      · cases h
    · obtain ⟨_, scalar, same⟩ := except_map_ok h
      cases same
      exact (scanScalar_suffix scalar).2

/-- A turn that goes on has read a character. -/
theorem turn_shorter {r r' : Reader} (h : r.turn = .ok (.again r')) :
    r'.rest.length < r.rest.length := by
  unfold turn at h
  split at h
  · cases h
  rename_i comma
  split at h
  · cases h
  rename_i key
  calc
    _ < _ := element_shorter h
    _ ≤ _ := ((skipBlanks_suffix _).trans (scanKey_suffix key)).length_le
    _ ≤ r.rest.length := ((scanComma_suffix comma).trans (skipBlanks_suffix _)).length_le

def loop (r : Reader) : Except Stop Node :=
  match h : r.turn with
  | .error stop => .error stop
  | .ok (.done node) => .ok node
  | .ok (.again next) =>
    have := turn_shorter h
    loop next
  termination_by r.rest.length

theorem loop_eq (r : Reader) :
    r.loop = match r.turn with
      | .error stop => .error stop
      | .ok (.done node) => .ok node
      | .ok (.again next) => next.loop := by
  rw [loop]
  split <;> rename_i turn <;> simp only [turn]

end Reader

/-- The node that a text stands for. -/
def readText (text : List UInt8) : Except Stop Node :=
  match skipBlanks text with
  | [] => .error .rejected
  | c :: rest =>
    if c = 91 then Reader.loop ⟨.array [], [], rest⟩
    else if c = 123 then Reader.loop ⟨.object [], [], rest⟩
    else .error .rejected

end CppMyth.Sajson
