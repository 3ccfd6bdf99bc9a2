import CppMyth.Http.Line

/-! The end of a header line. The matcher of the reader does not look again at the byte that
breaks a match, so carriage returns in front of the end of line can hide it. -/
namespace CppMyth
open Library
open NetSocket

namespace WSResponse

/-- The number of carriage returns that the text ends in. -/
def trailing (text : List UInt8) : Nat := (text.reverse.takeWhile (· = 13)).length

@[simp] theorem trailing_nil : trailing [] = 0 := rfl

theorem trailing_concat (text : List UInt8) (b : UInt8) :
    trailing (text ++ [b]) = if b = 13 then trailing text + 1 else 0 := by
  rw [trailing, List.reverse_append]
  by_cases return_ : b = 13
  · simp [return_, trailing]
  · simp [return_]

theorem crlf_of_trailing {text : List UInt8} (some_ : trailing text ≠ 0) :
    crlf <:+: text ++ [10] := by
  induction text using List.reverseRecOn with
  | nil => exact absurd rfl some_
  | append_singleton text b _ =>
    rw [trailing_concat] at some_
    have return_ : b = 13 := by
      apply Decidable.of_not_not
      intro other
      exact some_ (if_neg other)
    exact ⟨text, [], by simp [return_, crlf]⟩

theorem matched_trailing {text : List UInt8} (absent : ¬ crlf <:+: text) :
    matched crlf 0 text = trailing text % 2 := by
  induction text using List.reverseRecOn with
  | nil => rfl
  | append_singleton text b ih =>
    have before : ¬ crlf <:+: text := fun inside => absent (inside.trans ⟨[], [b], by simp⟩)
    have step : matched crlf 0 (text ++ [b]) = advance crlf (matched crlf 0 text) b :=
      List.foldl_concat _ _ _ _
    rw [step, ih before, trailing_concat]
    rcases Nat.mod_two_eq_zero_or_one (trailing text) with even | odd
    · rw [even]
      by_cases return_ : b = 13
      · subst return_
        have next : (trailing text + 1) % 2 = 1 := by omega
        rw [if_pos rfl, next]
        rfl
      · rw [if_neg return_]
        exact if_neg fun same => return_ (Option.some.inj same).symm
    · rw [odd]
      by_cases return_ : b = 13
      · subst return_
        have next : (trailing text + 1) % 2 = 0 := by omega
        rw [if_pos rfl, next]
        rfl
      · rw [if_neg return_]
        have feed : b ≠ 10 := by
          rintro rfl
          exact absent (crlf_of_trailing (by omega))
        exact if_neg fun same => feed (Option.some.inj same).symm

theorem broken_iff_trailing {text : List UInt8} (absent : ¬ crlf <:+: text) :
    Broken crlf text ↔ trailing text % 2 = 0 := by
  have two : crlf.length = 2 := rfl
  rw [broken_iff_idle (by decide), idle_iff_matched, matched_trailing absent]
  intro front inside _
  have before : ¬ crlf <:+: front := fun h => absent (h.trans inside.isInfix)
  rw [matched_trailing before]
  omega

variable {S : Type} [NetSocket S] {Arrives : S → List UInt8 → Prop}

/-- A line up to the first end of line is read as it is, and what is behind it is left, exactly
when it ends in an even number of carriage returns. -/
theorem header_line_iff (delivery : Delivery Arrives) {s : S} {text rest : List UInt8}
    (arrives : Arrives s (text ++ crlf ++ rest)) (nul_free : 0 ∉ text ++ crlf ++ rest)
    (first : ¬ crlf <:+: text) (short : text.length ≤ headerMaxLen) :
    ((readHeaderLine crlf s).1 = ⟨true, text, text.length⟩ ∧
      Arrives (readHeaderLine crlf s).2 rest) ↔ trailing text % 2 = 0 := by
  obtain ⟨same, next⟩ := readHeaderLine_arrives delivery crlf arrives
  rw [← broken_iff_trailing first, ← cut_iff_broken (by decide) text rest]
  constructor
  · rintro ⟨read, -⟩
    exact cut_of_readHeaderLine nul_free short (same.symm.trans read)
  · intro cutting
    have clean : 0 ∉ text := by
      intro mem
      apply nul_free
      simp [mem]
    have read := readHeaderLine_of_cut clean short cutting
    rw [read] at same next
    exact ⟨same, next⟩

/-- Two carriage returns in front of the end of line leave it to be seen. -/
theorem header_line_two_returns :
    ((readHeaderLine crlf (TcpSocket.connected [65, 13, 13, 13, 10, 66] (fun _ => .ready 0)
        fun _ => true)).1 = ⟨true, [65, 13, 13], 3⟩ ∧
      Ready (readHeaderLine crlf (TcpSocket.connected [65, 13, 13, 13, 10, 66] (fun _ => .ready 0)
        fun _ => true)).2 [66]) ↔ trailing [65, 13, 13] % 2 = 0 :=
  header_line_iff ready_delivery ⟨rfl, fun _ => ⟨0, rfl⟩, rfl⟩ (by decide) (by decide) (by decide)

/-- One carriage return in front of the end of line hides it: the reader goes on to the end of
the stream. -/
theorem header_line_hidden :
    ¬ crlf <:+: [65, 13] ∧ 0 ∉ ([65, 13] ++ crlf ++ [66] : List UInt8) ∧
      readHeaderLine crlf ([65, 13] ++ crlf ++ [66] : List UInt8) = (⟨false, [], 0⟩, []) := by
  refine ⟨by decide, by decide, ?_⟩
  rfl

end WSResponse

end CppMyth
