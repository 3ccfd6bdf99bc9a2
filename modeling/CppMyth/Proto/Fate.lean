import CppMyth.Proto.Base

/-! What the calls that read leave of a connection, whatever the network does. -/
namespace CppMyth.ProtoBase

/-- What a read leaves: the same connection with no byte lost, or one that is hung up. -/
inductive Fate (t t' : ProtoBase) : Prop
  | alive (valid : t'.socket.valid = t.socket.valid) (hang : t'.hang = t.hang)
      (isOpen : t'.isOpen = t.isOpen)
      (sent : t'.socket.sent = t.socket.sent)
      (bytes : t'.socket.received ++ t'.socket.pending = t.socket.received ++ t.socket.pending)
  | hung (valid : t'.socket.valid = false) (hang : t'.hang = true)
      (sent : t'.socket.sent = t.socket.sent)

theorem Fate.refl (t : ProtoBase) : Fate t t := .alive rfl rfl rfl rfl rfl

theorem Fate.sent {t t' : ProtoBase} (fate : Fate t t') : t'.socket.sent = t.socket.sent := by
  cases fate with
  | alive _ _ _ sent => exact sent
  | hung _ _ sent => exact sent

theorem Fate.trans {t u v : ProtoBase} (h : Fate t u) (k : Fate u v) : Fate t v := by
  have sent := k.sent.trans h.sent
  cases k with
  | hung valid hang => exact .hung valid hang sent
  | alive valid hang isOpen _ bytes =>
    cases h with
    | hung valid' hang' => exact .hung (valid.trans valid') (hang.trans hang') sent
    | alive valid' hang' isOpen' _ bytes' =>
      exact .alive (valid.trans valid') (hang.trans hang') (isOpen.trans isOpen') sent
        (bytes.trans bytes')

theorem receiveData_fate (t : ProtoBase) (n : Nat) :
    Fate t { t with socket := (t.socket.receiveData n).2 } := by
  obtain ⟨-, hp, hv, hr, hs, -⟩ := t.socket.receiveData_spec n
  refine .alive hv rfl rfl hs ?_
  rw [hp, hr, List.append_assoc]

theorem hangException_fate (t : ProtoBase) : Fate t t.hangException :=
  .hung (by simp [hangException, closeSocket]) rfl (by simp [hangException, closeSocket])

theorem flushLoop_fate (fuel f n : Nat) (t : ProtoBase) : Fate t (flushLoop fuel f n t).2 := by
  induction fuel generalizing f n t with
  | zero => exact .refl t
  | succ fuel ih =>
    unfold flushLoop
    by_cases done : f = 0
    · rw [if_pos done]
      exact .refl t
    · rw [if_neg done]
      generalize (if f > bufferSize then bufferSize else f) = r
      simp only
      by_cases cut : (t.socket.receiveData r).1.length ≠ r
      · rw [if_pos cut]
        exact (receiveData_fate t r).trans (hangException_fate _)
      · rw [if_neg cut]
        exact (receiveData_fate t r).trans (ih _ _ _)

theorem flushMessage_fate (t : ProtoBase) : Fate t t.flushMessage.2 :=
  (flushLoop_fate _ _ 0 t).trans (.alive rfl rfl rfl rfl rfl)

theorem readFieldLoop_fate (left : Nat) (t : ProtoBase) (buf : List UInt8) (pss : Nat)
    (field : List UInt8) (c : Nat) : Fate t (readFieldLoop left t buf pss field c).2 := by
  induction left generalizing t buf pss field c with
  | zero => exact .refl t
  | succ left ih =>
    have first := receiveData_fate t 1
    cases hb : (t.socket.receiveData 1).1 with
    | nil =>
      simp only [readFieldLoop, hb]
      exact first.trans (hangException_fate _)
    | cons b tail =>
      by_cases hit : separator[pss]? = some b
      · by_cases full : pss + 1 ≥ separator.length
        · simp only [readFieldLoop, hb, if_pos hit, if_pos full]
          exact first
        · simp only [readFieldLoop, hb, if_pos hit, if_neg full]
          exact first.trans (ih _ _ _ _ _)
      · by_cases refill : (buf ++ [b]).length > bufferSize - 2 - separator.length
        · simp only [readFieldLoop, hb, if_neg hit, if_pos refill]
          exact first.trans (ih _ _ _ _ _)
        · simp only [readFieldLoop, hb, if_neg hit, if_neg refill]
          exact first.trans (ih _ _ _ _ _)

structure Live (t : ProtoBase) : Prop where
  valid : t.socket.valid = true
  isOpen : t.isOpen = true
  hang : t.hang = false

structure Gone (t : ProtoBase) : Prop where
  valid : t.socket.valid = false
  hang : t.hang = true

section Calls

variable {t t' : ProtoBase}

theorem Fate.split (fate : Fate t t') (live : Live t) :
    Gone t' ∨ Live t' ∧
      t'.socket.received ++ t'.socket.pending = t.socket.received ++ t.socket.pending := by
  cases fate with
  | hung valid hang => exact .inl ⟨valid, hang⟩
  | alive valid hang isOpen _ bytes =>
    exact .inr ⟨⟨valid.trans live.valid, isOpen.trans live.isOpen, hang.trans live.hang⟩, bytes⟩

theorem Gone.after (gone : Gone t) (fate : Fate t t') : Gone t' := by
  cases fate with
  | hung valid hang => exact ⟨valid, hang⟩
  | alive valid hang => exact ⟨valid.trans gone.valid, hang.trans gone.hang⟩

theorem readField_fate (t : ProtoBase) : Fate t t.readField.2 := by
  unfold readField
  by_cases done : t.msgConsumed ≥ t.msgLength
  · rw [if_pos done]
    exact .refl t
  · rw [if_neg done]
    have fate := readFieldLoop_fate (t.msgLength - t.msgConsumed) t [] 0 [] t.msgConsumed
    generalize readFieldLoop (t.msgLength - t.msgConsumed) t [] 0 [] t.msgConsumed = r at fate ⊢
    obtain ⟨_ | ⟨field, c⟩, u⟩ := r
    · exact fate
    · simp only
      split
      · exact fate.trans (.alive rfl rfl rfl rfl rfl)
      · exact fate.trans (.alive rfl rfl rfl rfl rfl)

theorem rcvMessageLength_fate (t : ProtoBase) : Fate t t.rcvMessageLength.2 := by
  have first := receiveData_fate t 8
  unfold rcvMessageLength
  by_cases placed : t.msgLength > 0
  · rw [if_pos placed]
    exact .refl t
  · rw [if_neg placed]
    by_cases full : (t.socket.receiveData 8).1.length = 8
    · simp only [if_pos full]
      cases stringToUint32 ((t.socket.receiveData 8).1 ++ t.stack 0) with
      | ok val => exact first.trans (.alive rfl rfl rfl rfl rfl)
      | error err =>
        have parsed : Fate t
            { t with socket := (t.socket.receiveData 8).2, stack := fun i => t.stack (i + 1) } :=
          first.trans (.alive rfl rfl rfl rfl rfl)
        exact parsed.trans (hangException_fate _)
    · simp only [if_neg full]
      exact first.trans (hangException_fate _)

end Calls

end CppMyth.ProtoBase
