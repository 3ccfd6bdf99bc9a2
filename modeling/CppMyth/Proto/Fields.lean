import CppMyth.Proto.Base
import Mathlib.Data.List.TakeWhile

/-! Reading the fields of one message. While its bytes arrive, ReadField returns what the
byte matcher cuts off, wherever the buffer is refilled. -/
namespace CppMyth.ProtoBase
open Library

theorem separator_ne_nil : separator ≠ [] := by decide

theorem cstr_of_not_mem {buf : List UInt8} (clean : 0 ∉ buf) : cstr buf = buf := by
  rw [cstr, List.takeWhile_eq_self_iff]
  intro c hc
  simpa using fun h : c = 0 => clean (h ▸ hc)

/-- What a call of the loop comes to: `front` was read before it, with `pss` bytes of a
separator matched at its end, and `body` is the rest of the message. -/
def Reads (t : ProtoBase) (pss : Nat) (front body : List UInt8) (c : Nat)
    (r : Option (List UInt8 × Nat) × ProtoBase) : Prop :=
  ∃ s, r.2 = { t with socket := s } ∧
    match cut separator pss body with
    | some (p, rest) => s.Delivers rest ∧ s.received = t.socket.received ++ p ∧
        ∃ v, r.1 = some (v, c + p.length) ∧ v ++ separator = front ++ p
    | none => s.Delivers [] ∧ s.received = t.socket.received ++ body ∧
        r.1 = some (front ++ body, c + body.length)

theorem Reads.turn {t : ProtoBase} {pss pss' : Nat} {front body : List UInt8} {b : UInt8}
    {c : Nat} {r : Option (List UInt8 × Nat) × ProtoBase} {s : TcpSocket}
    (received : s.received = t.socket.received ++ [b])
    (cutting : cut separator pss (b :: body) =
      (cut separator pss' body).map fun r => (b :: r.1, r.2))
    (h : Reads { t with socket := s } pss' (front ++ [b]) body (c + 1) r) :
    Reads t pss front (b :: body) c r := by
  obtain ⟨s', hs, result⟩ := h
  refine ⟨s', hs, ?_⟩
  rw [cutting]
  cases hc : cut separator pss' body with
  | none =>
    simp only [hc, Option.map_none] at result ⊢
    obtain ⟨hd, hrec, hres⟩ := result
    refine ⟨hd, ?_, ?_⟩
    · rw [hrec, received, List.append_assoc, List.singleton_append]
    · rw [hres, List.append_assoc, List.singleton_append, List.length_cons,
        Nat.add_right_comm, Nat.add_assoc]
  | some q =>
    obtain ⟨p, rest⟩ := q
    simp only [hc, Option.map_some] at result ⊢
    obtain ⟨hd, hrec, v, hres, hv⟩ := result
    refine ⟨hd, ?_, v, ?_, ?_⟩
    · rw [hrec, received, List.append_assoc, List.singleton_append]
    · rw [hres, List.length_cons, Nat.add_right_comm, Nat.add_assoc]
    · rw [hv, List.append_assoc, List.singleton_append]

theorem readFieldLoop_delivers (body : List UInt8) (t : ProtoBase) (buf : List UInt8)
    (pss : Nat) (field : List UInt8) (c : Nat) (arrives : t.socket.Delivers body)
    (short : pss < separator.length) (matched : separator.take pss <:+ buf)
    (cleanBuf : 0 ∉ buf) (clean : 0 ∉ body) :
    Reads t pss (field ++ buf) body c (readFieldLoop body.length t buf pss field c) := by
  induction body generalizing t buf pss field c with
  | nil => exact ⟨t.socket, rfl, arrives, by simp, by
      simp [readFieldLoop, cstr_of_not_mem cleanBuf]⟩
  | cons b body ih =>
    obtain ⟨hb, next, received⟩ := TcpSocket.receiveData_one arrives
    rw [List.mem_cons, not_or] at clean
    have cleanStored : 0 ∉ buf ++ [b] := by simp [cleanBuf, clean.1]
    by_cases hit : separator[pss]? = some b
    · have grown : separator.take (pss + 1) <:+ buf ++ [b] := by
        rw [take_succ_of_getElem? hit]
        obtain ⟨x, hx⟩ := matched
        exact ⟨x, by rw [← List.append_assoc, hx]⟩
      by_cases full : pss + 1 ≥ separator.length
      · -- the separator is the end of the buffer, what is before it ends the field
        have whole : pss + 1 = separator.length := by omega
        rw [whole, List.take_length] at grown
        obtain ⟨x, hx⟩ := grown
        have cleanX : 0 ∉ x := fun h => cleanStored (hx ▸ List.mem_append_left _ h)
        have kept : (buf ++ [b]).take ((buf ++ [b]).length - separator.length) = x := by
          rw [← hx, List.length_append, Nat.add_sub_cancel, List.take_left']
          rfl
        have cutting : cut separator pss (b :: body) = some ([b], body) := by
          simp only [cut, advance, if_pos hit, if_pos whole]
        refine ⟨(t.socket.receiveData 1).2, ?_, ?_⟩
        · simp only [List.length_cons, readFieldLoop, hb, if_pos hit, if_pos full]
        · rw [cutting]
          refine ⟨next, received, field ++ x, ?_, ?_⟩
          · simp only [List.length_cons, readFieldLoop, hb, if_pos hit, if_pos full, kept,
              cstr_of_not_mem cleanX, List.length_nil]
          · rw [List.append_assoc, hx, List.append_assoc]
      · have partly : pss + 1 ≠ separator.length := by omega
        have cutting : cut separator pss (b :: body) =
            (cut separator (pss + 1) body).map fun r => (b :: r.1, r.2) := by
          simp only [cut, advance, if_pos hit, if_neg partly]
        refine .turn received cutting ?_
        simp only [List.length_cons, readFieldLoop, hb, if_pos hit, if_neg full]
        rw [List.append_assoc]
        exact ih _ (buf ++ [b]) (pss + 1) field (c + 1) next (by omega) grown cleanStored
          clean.2
    · have positive : 0 ≠ separator.length := by decide
      have cutting : cut separator pss (b :: body) =
          (cut separator 0 body).map fun r => (b :: r.1, r.2) := by
        simp only [cut, advance, if_neg hit, if_neg positive]
      refine .turn received cutting ?_
      simp only [List.length_cons, readFieldLoop, hb, if_neg hit]
      rw [List.append_assoc]
      by_cases refill : (buf ++ [b]).length > bufferSize - 2 - separator.length
      · rw [if_pos refill, cstr_of_not_mem cleanStored]
        have after := ih { t with socket := (t.socket.receiveData 1).2 } [] 0
          (field ++ (buf ++ [b])) (c + 1) next (by decide) (by simp) (by simp) clean.2
        rwa [List.append_nil] at after
      · rw [if_neg refill]
        exact ih _ (buf ++ [b]) 0 field (c + 1) next (by decide) (by simp) cleanStored clean.2

/-- The rest of the current message is `body`, and it arrives. -/
structure Reading (t : ProtoBase) (body : List UInt8) : Prop where
  counters : t.msgConsumed + body.length = t.msgLength
  arrives : t.socket.Delivers body
  clean : 0 ∉ body

structure Moved (t t' : ProtoBase) (taken : List UInt8) : Prop where
  received : t'.socket.received = t.socket.received ++ taken
  protoVersion : t'.protoVersion = t.protoVersion

theorem Moved.trans {t u v : ProtoBase} {front back : List UInt8} (h : Moved t u front)
    (k : Moved u v back) : Moved t v (front ++ back) :=
  ⟨by rw [k.received, h.received, List.append_assoc], k.protoVersion.trans h.protoVersion⟩

theorem readField_end {t : ProtoBase} (reading : Reading t []) : t.readField = (none, t) := by
  have done : t.msgConsumed ≥ t.msgLength := Nat.le_of_eq reading.counters.symm
  rw [readField, if_pos done]

/-- ReadField on a message whose rest arrives. The last byte resets the counters. -/
theorem readField_reading {t : ProtoBase} {body : List UInt8} (reading : Reading t body)
    (more : body ≠ []) :
    match cut separator 0 body with
    | some (p, rest) => ∃ v, t.readField.1 = some v ∧ v ++ separator = p ∧
        Reading t.readField.2 rest ∧ Moved t t.readField.2 p
    | none => t.readField.1 = some body ∧ Reading t.readField.2 [] ∧
        Moved t t.readField.2 body := by
  have left : t.msgLength - t.msgConsumed = body.length := by
    have := reading.counters
    omega
  have open' : ¬ t.msgConsumed ≥ t.msgLength := by
    have := reading.counters
    have := List.length_pos_of_ne_nil more
    omega
  obtain ⟨s, hs, result⟩ := readFieldLoop_delivers body t [] 0 [] t.msgConsumed
    reading.arrives (by decide) (by simp) (by simp) reading.clean
  unfold readField
  simp only [if_neg open', left]
  cases hc : cut separator 0 body with
  | none =>
    simp only [hc] at result ⊢
    obtain ⟨hd, hr, hres⟩ := result
    have closed : ¬ t.msgLength > t.msgConsumed + body.length := by
      have := reading.counters
      omega
    simp only [hres, if_neg closed, hs]
    exact ⟨rfl, ⟨rfl, hd, by simp⟩, ⟨hr, rfl⟩⟩
  | some q =>
    obtain ⟨p, rest⟩ := q
    have whole : body = p ++ rest := cut_append hc
    have len : body.length = p.length + rest.length := by rw [whole, List.length_append]
    have cleanRest : 0 ∉ rest := fun h => reading.clean (whole ▸ List.mem_append_right p h)
    have counters := reading.counters
    simp only [hc] at result ⊢
    obtain ⟨hd, hr, v, hres, hv⟩ := result
    simp only [hres]
    refine ⟨v, ?_, by simpa using hv, ?_⟩
    · split <;> rfl
    · by_cases goes : t.msgLength > t.msgConsumed + p.length
      · rw [if_pos goes, hs]
        exact ⟨⟨by simp only; omega, hd, cleanRest⟩, ⟨hr, rfl⟩⟩
      · rw [if_neg goes, hs]
        obtain rfl : rest = [] := List.length_eq_zero_iff.mp (by omega)
        exact ⟨⟨rfl, hd, cleanRest⟩, ⟨hr, rfl⟩⟩

def readFields : Nat → ProtoBase → List (Option (List UInt8)) × ProtoBase
  | 0, t => ([], t)
  | n + 1, t =>
    let rest := readFields n t.readField.2
    (t.readField.1 :: rest.1, rest.2)

theorem readField_broken {t : ProtoBase} {field back : List UInt8}
    (reading : Reading t (field ++ separator ++ back)) (broken : Broken separator field) :
    t.readField.1 = some field ∧ Reading t.readField.2 back ∧
      Moved t t.readField.2 (field ++ separator) := by
  have more : field ++ separator ++ back ≠ [] := by simp [separator_ne_nil]
  have result := readField_reading reading more
  rw [(cut_iff_broken separator_ne_nil field back).mpr broken] at result
  obtain ⟨v, hv, hs, hr, hm⟩ := result
  rw [List.append_cancel_right hs] at hv
  exact ⟨hv, hr, hm⟩

theorem readField_last {t : ProtoBase} {field : List UInt8} (reading : Reading t field)
    (more : field ≠ []) (absent : ¬ separator <:+: field) :
    t.readField.1 = some field ∧ Reading t.readField.2 [] ∧ Moved t t.readField.2 field := by
  have result := readField_reading reading more
  rwa [cut_none_of_absent separator_ne_nil absent] at result

theorem readField_ne {t : ProtoBase} {field back : List UInt8}
    (reading : Reading t (field ++ separator ++ back)) (missed : ¬ Broken separator field) :
    t.readField.1 ≠ some field := by
  have more : field ++ separator ++ back ≠ [] := by simp [separator_ne_nil]
  have result := readField_reading reading more
  cases hc : cut separator 0 (field ++ separator ++ back) with
  | none =>
    rw [hc] at result
    rw [result.1]
    simp [separator_ne_nil]
  | some q =>
    obtain ⟨p, rest⟩ := q
    rw [hc] at result
    obtain ⟨v, hv, hs, -⟩ := result
    rw [hv]
    intro same
    obtain rfl := Option.some.inj same
    have whole := cut_append hc
    rw [← hs] at whole hc
    rw [← List.append_cancel_left whole] at hc
    exact missed ((cut_iff_broken separator_ne_nil v back).mp hc)

theorem readField_text {t : ProtoBase} {text : List UInt8} {rest : List (List UInt8)}
    (plain : 91 ∉ text)
    (some_left : rest = [] → text ≠ [])
    (reading : Reading t (joinFields separator (text :: rest))) :
    t.readField.1 = some text ∧ Reading t.readField.2 (joinFields separator rest) ∧
      ∃ taken, Moved t t.readField.2 taken ∧
        joinFields separator (text :: rest) = taken ++ joinFields separator rest := by
  by_cases last : rest = []
  · subst last
    have absent : ¬ separator <:+: text := fun h => plain (h.subset (by decide))
    obtain ⟨result, reading', moved⟩ := readField_last reading (some_left rfl) absent
    exact ⟨result, reading', text, moved, by simp [joinFields]⟩
  · rw [joinFields_cons separator text last] at reading ⊢
    have broken : Broken separator text := broken_of_not_mem rfl plain
    obtain ⟨result, reading', moved⟩ := readField_broken reading broken
    exact ⟨result, reading', text ++ separator, moved, rfl⟩

/-- The exact condition: the matcher is at rest at the end of each field but the last, and
the last is not an empty field behind a separator. -/
def Delimited (fields : List (List UInt8)) : Prop :=
  (∀ f ∈ fields.dropLast, Broken separator f) ∧ (fields.length = 1 ∨ fields.getLast? ≠ some [])

instance (field : List UInt8) : Decidable (Broken separator field) :=
  decidable_of_iff _ (broken_iff_idle separator_ne_nil).symm

instance (fields : List (List UInt8)) : Decidable (Delimited fields) :=
  inferInstanceAs (Decidable (_ ∧ (_ ∨ _)))

theorem delimited_cons {f g : List UInt8} {rest : List (List UInt8)}
    (broken : Broken separator f) :
    Delimited (f :: g :: rest) ↔
      joinFields separator (g :: rest) ≠ [] ∧ Delimited (g :: rest) := by
  cases rest with
  | nil => simp [Delimited, joinFields, broken]
  | cons h rest =>
    have joined : joinFields separator (g :: h :: rest) ≠ [] := by
      simp [joinFields, separator_ne_nil]
    simp [Delimited, broken, joined]

theorem readFields_iff (fields : List (List UInt8)) (t : ProtoBase) (nonempty : fields ≠ [])
    (absent : ∀ f ∈ fields, ¬ separator <:+: f) (body : joinFields separator fields ≠ [])
    (reading : Reading t (joinFields separator fields)) :
    ((readFields (fields.length + 1) t).1 = fields.map some ++ [none] ∧
      (readFields (fields.length + 1) t).2.socket.received =
        t.socket.received ++ joinFields separator fields) ↔ Delimited fields := by
  induction fields generalizing t with
  | nil => exact absurd rfl nonempty
  | cons f rest ih =>
    cases rest with
    | nil =>
      obtain ⟨hf, hr, hm⟩ := readField_last reading body (absent f (by simp))
      simp only [joinFields, List.length_singleton, readFields, hf, readField_end hr,
        hm.received, Delimited]
      simp
    | cons g rest =>
      have shape : joinFields separator (f :: g :: rest) =
          f ++ separator ++ joinFields separator (g :: rest) := rfl
      rw [shape] at reading
      by_cases broken : Broken separator f
      · obtain ⟨hf, hr, hm⟩ := readField_broken reading broken
        have received := hm.received
        rw [delimited_cons broken]
        by_cases empty : joinFields separator (g :: rest) = []
        · -- the separator was the end of the message, so the next call finds nothing
          rw [empty] at hr
          constructor
          · rintro ⟨results, -⟩
            simp only [List.length_cons, readFields, List.map_cons, List.cons_append,
              List.cons.injEq, readField_end hr] at results
            exact absurd results.2.1 (by simp)
          · rintro ⟨joined, -⟩
            exact absurd empty joined
        · have tail := ih t.readField.2 (by simp) (fun h hh => absent h (by simp [hh])) empty hr
          rw [← tail, received]
          simp only [List.length_cons, readFields, List.map_cons, List.cons_append,
            List.cons.injEq, hf, true_and, shape, List.append_assoc, empty, ne_eq,
            not_false_eq_true]
      · constructor
        · rintro ⟨results, -⟩
          simp only [List.length_cons, readFields, List.map_cons, List.cons_append,
            List.cons.injEq] at results
          exact absurd results.1 (readField_ne reading broken)
        · intro delimited
          exact absurd (delimited.1 f (by simp)) broken

theorem clean_joinFields {fields : List (List UInt8)} (clean : ∀ f ∈ fields, 0 ∉ f) :
    0 ∉ joinFields separator fields := by
  intro h
  rcases mem_joinFields h with hs | ⟨f, hf, hx⟩
  · exact absurd hs (by decide)
  · exact clean f hf hx

/-- A message of `fields` is announced, none of it is read and all of it arrives. -/
structure Announced (t : ProtoBase) (fields : List (List UInt8)) : Prop where
  nonempty : fields ≠ []
  clean : ∀ f ∈ fields, 0 ∉ f
  absent : ∀ f ∈ fields, ¬ separator <:+: f
  message : joinFields separator fields ≠ []
  msgLength : t.msgLength = (joinFields separator fields).length
  msgConsumed : t.msgConsumed = 0
  arrives : t.socket.Delivers (joinFields separator fields)

/-- Successive calls return the fields of the message, then nothing, and take its bytes. -/
def ReturnsFields (t : ProtoBase) (fields : List (List UInt8)) : Prop :=
  (readFields (fields.length + 1) t).1 = fields.map some ++ [none] ∧
    (readFields (fields.length + 1) t).2.socket.received =
      t.socket.received ++ joinFields separator fields

theorem returnsFields_iff_delimited (t : ProtoBase) (fields : List (List UInt8))
    (announced : Announced t fields) : ReturnsFields t fields ↔ Delimited fields :=
  readFields_iff fields t announced.nonempty announced.absent announced.message
    ⟨by rw [announced.msgConsumed, announced.msgLength, Nat.zero_add], announced.arrives,
      clean_joinFields announced.clean⟩

/-- A connection where the bytes of `stream` come in one at a time. -/
def trickle (stream : List UInt8) : ProtoBase :=
  { connected (.connected stream (fun _ => .ready 0) (fun _ => true)) 91 (fun _ => []) with
    msgLength := stream.length }

theorem trickle_announced {fields : List (List UInt8)} (nonempty : fields ≠ [])
    (clean : ∀ f ∈ fields, 0 ∉ f) (absent : ∀ f ∈ fields, ¬ separator <:+: f)
    (message : joinFields separator fields ≠ []) :
    Announced (trickle (joinFields separator fields)) fields :=
  ⟨nonempty, clean, absent, message, rfl, rfl, ⟨rfl, fun _ => ⟨0, rfl⟩, List.prefix_rfl⟩⟩

theorem returnsFields_bracketed : ReturnsFields
    (trickle (joinFields separator [ascii "OK", [], ascii "[x]:", ascii "["]))
    [ascii "OK", [], ascii "[x]:", ascii "["] :=
  (returnsFields_iff_delimited _ _
    (trickle_announced (by decide) (by decide) (by decide) (by decide))).mpr (by decide)

/-- A field that ends with the first byte of the separator is not delimited. -/
theorem not_always_returnsFields :
    ¬ ∀ (t : ProtoBase) (fields : List (List UInt8)), Announced t fields →
      ReturnsFields t fields := by
  intro claim
  have returned := claim _ [ascii "a[", ascii "b"]
    (trickle_announced (by decide) (by decide) (by decide) (by decide))
  exact absurd returned.1 (by decide)

end CppMyth.ProtoBase
