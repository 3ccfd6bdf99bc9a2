import CppMyth.Library.Codec

/-! Codecs that keep back their text: all of it is encoded once the flush is asked, and decoded
once the stream is whole. The stored blocks of the deflate format are such a code. -/
namespace CppMyth.Library

/-- A front of two parts ends within the first or goes on in the second. -/
theorem front_append {α : Type*} {first last wire : List α} (front : wire <+: first ++ last) :
    (wire <+: first ∧ wire.length < first.length) ∨ ∃ d, wire = first ++ d ∧ d <+: last := by
  rcases Nat.lt_or_ge wire.length first.length with short | long
  · exact .inl ⟨List.prefix_of_prefix_length_le front (List.prefix_append first last)
      (Nat.le_of_lt short), short⟩
  · obtain ⟨d, rfl⟩ := List.prefix_of_prefix_length_le (List.prefix_append first last) front long
    exact .inr ⟨d, rfl, (List.prefix_append_right_inj first).mp front⟩

/-- A code of which no word is the front of another. `decode` gives the text of the first word
and the length of the word. -/
structure PrefixCode (α : Type*) where
  encode : List α → List α
  decode : List α → Option (List α × Nat)
  bound : Nat → Nat
  bound_mono : Monotone bound
  encode_le : ∀ text, (encode text).length ≤ bound text.length
  decode_le : ∀ input text n, decode input = some (text, n) → n ≤ input.length
  decode_encode : ∀ text, decode (encode text) = some (text, (encode text).length)
  decode_front : ∀ text input, input <+: encode text → input ≠ encode text → decode input = none

namespace PrefixCode

variable {α : Type*} (code : PrefixCode α)

structure Held (α : Type*) where
  fed : List α
  emitted : List α

/-- What goes out next of `whole`, and whether it is the last. -/
def give (whole emitted : List α) (room : Nat) : List α × Int :=
  let out := (whole.drop emitted.length).take room
  (out, if whole.length ≤ emitted.length + out.length then 1 else 0)

theorem give_full {whole emitted : List α} {room : Nat} (more : (give whole emitted room).2 = 0) :
    (give whole emitted room).1.length = room := by
  simp only [give, List.length_take, List.length_drop] at more ⊢
  split at more
  · cases more
  · omega

theorem give_front {whole emitted : List α} (room : Nat) (front : emitted <+: whole) :
    emitted ++ (give whole emitted room).1 <+: whole := by
  obtain ⟨rest, rfl⟩ := front
  simp only [give, List.drop_left]
  exact ⟨rest.drop room, by rw [List.append_assoc, List.take_append_drop]⟩

theorem give_last {whole emitted : List α} {room : Nat} (front : emitted <+: whole)
    (last : (give whole emitted room).2 = 1) : emitted ++ (give whole emitted room).1 = whole := by
  apply List.IsPrefix.eq_of_length (give_front room front)
  have le := (give_front room front).length_le
  simp only [give, List.length_append] at last le ⊢
  split at last
  · omega
  · cases last

theorem give_status (whole emitted : List α) (room : Nat) :
    (give whole emitted room).2 = 0 ∨ (give whole emitted room).2 = 1 := by
  simp only [give]
  split
  · exact .inr rfl
  · exact .inl rfl

/-- The words go out after the flush is asked, and no text comes then. -/
def Encoding (c : Held α) (input : List α) (finish : Bool) : Prop :=
  c.emitted = [] ∨ finish = true ∧ input = [] ∧ c.emitted <+: code.encode c.fed

theorem Encoding.front {c : Held α} {input : List α} (h : code.Encoding c input true) :
    c.emitted <+: code.encode (c.fed ++ input) := by
  rcases h with none | ⟨-, rfl, front⟩
  · rw [none]
    exact List.nil_prefix
  · rwa [List.append_nil]

variable [DecidableEq α]

def encodeStep (starved : Int) (c : Held α) (input : List α) (finish : Bool) (room : Nat) :
    CodecStep (Held α) α :=
  let fed := c.fed ++ input
  if finish then
    let out := give (code.encode fed) c.emitted room
    ⟨⟨fed, c.emitted ++ out.1⟩, input.length, out.1, out.2⟩
  else ⟨⟨fed, c.emitted⟩, input.length, [], if input = [] then starved else 0⟩

def encoder (starved : Int) (failure : starved < 0) : Encoder (Held α) α starved where
  step := code.encodeStep starved
  consumed_le c input finish room := by cases finish <;> exact Nat.le_refl _
  produced_le c input finish room := by
    cases finish with
    | true => exact List.length_take_le _ _
    | false => exact Nat.zero_le room
  init := ⟨[], []⟩
  Running := code.Encoding
  fed := Held.fed
  emitted := Held.emitted
  running_init input finish := .inl rfl
  running_step c input finish room h ok := by
    cases finish with
    | true => exact .inr ⟨rfl, List.drop_length, give_front room (Encoding.front code h)⟩
    | false => exact .inl (h.resolve_right fun other => Bool.false_ne_true other.1)
  running_more c input finish h := .inl (h.resolve_right fun other => Bool.false_ne_true other.1)
  fed_init := rfl
  emitted_init := rfl
  fed_step c input finish room := by cases finish <;> simp [encodeStep]
  emitted_step c input finish room := by cases finish <;> simp [encodeStep]
  greedy c input finish room h ok := by cases finish <;> exact .inl rfl
  Whole stream text := stream = code.encode text
  bound := code.bound
  bound_mono := code.bound_mono
  bounded c input finish h := by
    rcases h with none | ⟨-, -, front⟩
    · rw [none]
      exact Nat.zero_le _
    · exact Nat.le_trans front.length_le (code.encode_le c.fed)
  bounded_whole stream text h := h ▸ code.encode_le text
  idle room := by simp [encodeStep]
  works c input finish room h able positive := by
    cases finish with
    | true => exact give_status _ _ room
    | false => exact .inl (if_neg (able.resolve_right Bool.false_ne_true))
  flushes c input room h ok := give_full ok
  ends c input finish room h last := by
    cases finish with
    | true => exact ⟨rfl, rfl, give_last (Encoding.front code h) last⟩
    | false =>
      simp only [encodeStep, Bool.false_eq_true, if_false] at last
      split at last <;> omega

def decodeStep (starved : Int) (c : Held α) (input : List α) (room : Nat) :
    CodecStep (Held α) α :=
  match code.decode (c.fed ++ input) with
  | some (text, n) =>
    let consumed := n - c.fed.length
    let out := give text c.emitted room
    ⟨⟨c.fed ++ input.take consumed, c.emitted ++ out.1⟩, consumed, out.1, out.2⟩
  | none =>
    ⟨⟨c.fed ++ input, c.emitted⟩, input.length, [], if input = [] then starved else 0⟩

theorem decode_within {text input : List α} (front : input <+: code.encode text) :
    code.decode input = if input = code.encode text then some (text, input.length) else none := by
  by_cases whole : input = code.encode text
  · rw [if_pos whole, whole]
    exact code.decode_encode text
  · rw [if_neg whole]
    exact code.decode_front text input front whole

def decoder (starved : Int) (failure : starved < 0) :
    Decoder (Held α) α fun stream text => stream = code.encode text where
  step c input _ room := code.decodeStep starved c input room
  consumed_le c input finish room := by
    unfold decodeStep
    cases found : code.decode (c.fed ++ input) with
    | none => exact Nat.le_refl _
    | some r =>
      have := code.decode_le _ r.1 r.2 found
      simp only [List.length_append] at this
      simp only
      omega
  produced_le c input finish room := by
    unfold decodeStep
    cases code.decode (c.fed ++ input) with
    | none => exact Nat.zero_le room
    | some r => exact List.length_take_le _ _
  init := ⟨[], []⟩
  Running _ _ _ := True
  fed := Held.fed
  emitted := Held.emitted
  running_init _ _ := trivial
  running_step _ _ _ _ _ _ := trivial
  running_more _ _ _ _ := trivial
  fed_init := rfl
  emitted_init := rfl
  fed_step c input finish room := by
    unfold decodeStep
    cases code.decode (c.fed ++ input) with
    | none => simp
    | some r => rfl
  emitted_step c input finish room := by
    unfold decodeStep
    cases code.decode (c.fed ++ input) with
    | none => simp
    | some r => rfl
  greedy c input finish room _ ok := by
    unfold decodeStep at ok ⊢
    cases found : code.decode (c.fed ++ input) with
    | none => exact .inl rfl
    | some r =>
      simp only [found] at ok
      exact .inr (give_full ok)
  works stream text c input room whole _ fits able _ := by
    subst whole
    unfold decodeStep
    rw [code.decode_within fits]
    by_cases all : c.fed ++ input = code.encode text
    · rw [if_pos all]
      exact give_status _ _ room
    · rw [if_neg all]
      refine .inl (if_neg ?_)
      intro none
      rw [none, List.append_nil] at all
      exact all (able.resolve_left (not_not.mpr none))
  front stream text c input room whole _ front fits := by
    subst whole
    unfold decodeStep
    rw [code.decode_within fits]
    by_cases all : c.fed ++ input = code.encode text
    · rw [if_pos all]
      exact give_front room front
    · rw [if_neg all]
      exact front
  flushes stream text c input room whole _ ok fed := by
    subst whole
    unfold decodeStep at ok fed ⊢
    cases found : code.decode (c.fed ++ input) with
    | none =>
      simp only [found] at fed
      rw [fed, code.decode_encode] at found
      cases found
    | some r =>
      simp only [found] at ok
      exact give_full ok
  ends stream text c input room whole _ front fits last := by
    subst whole
    unfold decodeStep at last ⊢
    rw [code.decode_within fits] at last ⊢
    by_cases all : c.fed ++ input = code.encode text
    · rw [if_pos all] at last ⊢
      exact give_last front last
    · rw [if_neg all] at last
      simp only at last
      split at last <;> omega

def frontDecoder (starved : Int) (failure : starved < 0) :
    FrontDecoder (Held α) α fun stream text => stream = code.encode text where
  toDecoder := code.decoder starved failure
  outcomes _ _ c input room _ _ _ := by
    change (code.decodeStep starved c input room).status ≤ 1
    unfold decodeStep
    cases code.decode (c.fed ++ input) with
    | none =>
      simp only
      split <;> omega
    | some r => rcases give_status r.1 c.emitted room with h | h <;> simp [h]
  progress c input room _ positive ok := by
    change (code.decodeStep starved c input room).status = 0 at ok
    change 0 < (code.decodeStep starved c input room).consumed ∨
      0 < (code.decodeStep starved c input room).produced.length
    unfold decodeStep at ok ⊢
    cases found : code.decode (c.fed ++ input) with
    | none =>
      simp only [found] at ok ⊢
      apply Or.inl
      apply List.length_pos_iff.mpr
      rintro rfl
      simp only [if_pos] at ok
      omega
    | some r =>
      simp only [found] at ok ⊢
      rw [give_full ok]
      exact .inr positive
  complete stream text c input room whole _ front last := by
    subst whole
    have fits : c.fed ++ input <+: code.encode text := front
    change (code.decodeStep starved c input room).status = 1 at last
    change (code.decodeStep starved c input room).state.fed = _
    unfold decodeStep at last ⊢
    rw [code.decode_within fits] at last ⊢
    by_cases all : c.fed ++ input = code.encode text
    · have rest : (c.fed ++ input).length - c.fed.length = input.length := by
        rw [List.length_append, Nat.add_sub_cancel_left]
      rw [if_pos all]
      simp only [rest, List.take_length]
      exact all
    · rw [if_neg all] at last
      simp only at last
      split at last <;> omega

end PrefixCode

/-- The five bytes before the data of a stored block of `len` bytes. -/
def storedHeader (final : UInt8) (len : Nat) : List UInt8 :=
  [final, UInt8.ofNat (len % 256), UInt8.ofNat (len / 256), UInt8.ofNat (255 - len % 256),
    UInt8.ofNat (255 - len / 256)]

/-- A text in stored blocks, as raw deflate has it: full ones, and a last one that is marked. -/
def store (text : List UInt8) : List UInt8 :=
  if text.length ≤ 65535 then storedHeader 1 text.length ++ text
  else storedHeader 0 65535 ++ text.take 65535 ++ store (text.drop 65535)
termination_by text.length
decreasing_by simp only [List.length_drop]; omega

def unstore (input : List UInt8) : Option (List UInt8 × Nat) :=
  match input with
  | final :: low :: high :: _ :: _ :: rest =>
    let len := low.toNat + 256 * high.toNat
    if rest.length < len then none
    else if final = 1 then some (rest.take len, 5 + len)
    else match unstore (rest.drop len) with
      | none => none
      | some (text, n) => some (rest.take len ++ text, 5 + len + n)
  | _ => none
termination_by input.length
decreasing_by simp only [List.length_drop, List.length_cons]; omega

theorem unstore_block (final : UInt8) {len : Nat} (fits : len ≤ 65535) (rest : List UInt8) :
    unstore (storedHeader final len ++ rest) =
      if rest.length < len then none
      else if final = 1 then some (rest.take len, 5 + len)
      else match unstore (rest.drop len) with
        | none => none
        | some (text, n) => some (rest.take len ++ text, 5 + len + n) := by
  have low : (UInt8.ofNat (len % 256)).toNat = len % 256 := by
    rw [UInt8.toNat_ofNat']
    omega
  have high : (UInt8.ofNat (len / 256)).toNat = len / 256 := by
    rw [UInt8.toNat_ofNat']
    omega
  have value : len % 256 + 256 * (len / 256) = len := by omega
  rw [storedHeader]
  simp only [List.cons_append, List.nil_append]
  rw [unstore]
  simp only [low, high, value]

theorem store_eq (text : List UInt8) : store text =
    if text.length ≤ 65535 then storedHeader 1 text.length ++ text
    else storedHeader 0 65535 ++ (text.take 65535 ++ store (text.drop 65535)) := by
  rw [store]
  split
  · rfl
  · rw [List.append_assoc]

theorem unstore_short {input : List UInt8} (short : input.length < 5) : unstore input = none := by
  unfold unstore
  split
  · simp only [List.length_cons] at short
    omega
  · rfl

theorem storedHeader_length (final : UInt8) (len : Nat) : (storedHeader final len).length = 5 := rfl

/-- The blocks are taken, whatever stands behind them. -/
theorem unstore_store_append (text rest : List UInt8) :
    unstore (store text ++ rest) = some (text, (store text).length) := by
  induction h : text.length using Nat.strong_induction_on generalizing text with
  | _ n ih =>
    rw [store_eq]
    by_cases small : text.length ≤ 65535
    · rw [if_pos small, List.append_assoc, unstore_block 1 small,
        if_neg (by rw [List.length_append]; omega), if_pos rfl, List.take_left,
        List.length_append, storedHeader_length]
    · have full : (text.take 65535).length = 65535 := by
        rw [List.length_take]
        omega
      rw [if_neg small, List.append_assoc, List.append_assoc, unstore_block 0 (Nat.le_refl _),
        if_neg (by rw [List.length_append]; omega), if_neg (by decide), List.drop_left' full,
        List.take_left' full, ih (text.drop 65535).length (by rw [List.length_drop]; omega) _ rfl]
      simp only [List.take_append_drop, List.length_append, storedHeader_length, full]
      congr 2
      omega

theorem unstore_store (text : List UInt8) :
    unstore (store text) = some (text, (store text).length) := by
  have taken := unstore_store_append text []
  rwa [List.append_nil] at taken

theorem unstore_front (text input : List UInt8) (front : input <+: store text)
    (part : input ≠ store text) : unstore input = none := by
  induction h : text.length using Nat.strong_induction_on generalizing text input with
  | _ n ih =>
    rw [store_eq] at front part
    by_cases small : text.length ≤ 65535
    · rw [if_pos small] at front part
      rcases front_append front with ⟨-, short⟩ | ⟨r, rfl, front'⟩
      · exact unstore_short short
      · have part' : r ≠ text := fun same => part (by rw [same])
        have less : r.length < text.length :=
          Nat.lt_of_le_of_ne front'.length_le fun same => part' (front'.eq_of_length same)
        rw [unstore_block 1 small, if_pos less]
    · rw [if_neg small] at front part
      have full : (text.take 65535).length = 65535 := by
        rw [List.length_take]
        omega
      rcases front_append front with ⟨-, short⟩ | ⟨r, rfl, front'⟩
      · exact unstore_short short
      · rw [unstore_block 0 (Nat.le_refl _)]
        rcases front_append front' with ⟨-, cut⟩ | ⟨r', rfl, front''⟩
        · rw [full] at cut
          rw [if_pos cut]
        · have part' : r' ≠ store (text.drop 65535) := fun same => part (by rw [same])
          have enough : ¬ (text.take 65535 ++ r').length < 65535 := by
            rw [List.length_append]
            omega
          rw [if_neg enough, if_neg (by decide), List.drop_left' full,
            ih (text.drop 65535).length (by rw [List.length_drop]; omega) _ r' front'' part' rfl]

theorem unstore_le (input text : List UInt8) (n : Nat) (found : unstore input = some (text, n)) :
    n ≤ input.length := by
  fun_induction unstore input generalizing text n with
  | case1 => cases found
  | case2 low high _ _ rest len wide =>
    obtain ⟨-, rfl⟩ := Prod.mk.inj (Option.some.inj found)
    simp only [List.length_cons]
    omega
  | case3 => cases found
  | case4 final low high _ _ rest len wide more text' n' inner ih =>
    obtain ⟨-, rfl⟩ := Prod.mk.inj (Option.some.inj found)
    have := ih text' n' inner
    rw [List.length_drop] at this
    simp only [List.length_cons]
    omega
  | case5 => cases found

theorem store_le (text : List UInt8) : (store text).length ≤ 6 * text.length + 5 := by
  induction h : text.length using Nat.strong_induction_on generalizing text with
  | _ n ih =>
    rw [store_eq]
    by_cases small : text.length ≤ 65535
    · rw [if_pos small, List.length_append, storedHeader_length]
      omega
    · have rest := ih (text.drop 65535).length (by rw [List.length_drop]; omega) _ rfl
      rw [if_neg small]
      simp only [List.length_append, storedHeader_length, List.length_take]
      rw [List.length_drop] at rest
      omega

def storedCode : PrefixCode UInt8 where
  encode := store
  decode := unstore
  bound n := 6 * n + 5
  bound_mono a b h := by
    simp only
    omega
  encode_le := store_le
  decode_le := unstore_le
  decode_encode := unstore_store
  decode_front := unstore_front

end CppMyth.Library
