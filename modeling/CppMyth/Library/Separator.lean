import Mathlib.Tactic

/-! The matcher that finds a separator byte by byte and falls back to its first position
on a mismatch, without looking at the mismatched byte again. It never reports a match
that is not there. It misses a separator exactly when a failed attempt overlaps it. -/
namespace CppMyth.Library

variable {α : Type*}

/-- The bytes of a list of fields with the separator between two of them. -/
def joinFields (sep : List α) : List (List α) → List α
  | [] => []
  | [f] => f
  | f :: g :: rest => f ++ sep ++ joinFields sep (g :: rest)

theorem joinFields_cons (sep f : List α) {fields : List (List α)} (more : fields ≠ []) :
    joinFields sep (f :: fields) = f ++ sep ++ joinFields sep fields := by
  cases fields with
  | nil => exact absurd rfl more
  | cons g rest => rfl

theorem joinFields_append (sep : List α) {front back : List (List α)} (hf : front ≠ [])
    (hb : back ≠ []) :
    joinFields sep (front ++ back) = joinFields sep front ++ sep ++ joinFields sep back := by
  induction front with
  | nil => exact absurd rfl hf
  | cons f rest ih =>
    cases rest with
    | nil => simp [joinFields_cons sep f hb, joinFields]
    | cons g rest =>
      have tail := ih (List.cons_ne_nil g rest)
      simp only [List.cons_append] at tail ⊢
      simp only [joinFields, tail, List.append_assoc]

theorem joinFields_ne_nil (sep : List α) {fields : List (List α)} {f : List α}
    (mem : f ∈ fields) (some_text : f ≠ []) : joinFields sep fields ≠ [] := by
  induction fields with
  | nil => simp at mem
  | cons g rest ih =>
    by_cases last : rest = []
    · obtain rfl : f = g := by simpa [last] using mem
      simpa [last, joinFields] using some_text
    · rw [joinFields_cons sep g last]
      rcases List.mem_cons.mp mem with rfl | tail
      · simp [some_text]
      · simp [ih tail]

theorem joinFields_flatten (sep : List α) {groups : List (List (List α))}
    (nonempty : ∀ g ∈ groups, g ≠ []) :
    joinFields sep (groups.map (joinFields sep)) = joinFields sep groups.flatten := by
  induction groups with
  | nil => rfl
  | cons g groups ih =>
    have tail := ih fun g' h => nonempty g' (List.mem_cons_of_mem g h)
    by_cases last : groups = []
    · simp [last, joinFields]
    · obtain ⟨g', groups', rfl⟩ := List.exists_cons_of_ne_nil last
      have front : g ≠ [] := nonempty g (by simp)
      have back : (g' :: groups').flatten ≠ [] := by simp [nonempty g']
      rw [List.map_cons, joinFields_cons sep _ (by simp), tail]
      exact (joinFields_append sep front back).symm

theorem mem_joinFields {sep : List α} {fields : List (List α)} {x : α}
    (h : x ∈ joinFields sep fields) : x ∈ sep ∨ ∃ f ∈ fields, x ∈ f := by
  induction fields with
  | nil => simp [joinFields] at h
  | cons f rest ih =>
    cases rest with
    | nil => exact .inr ⟨f, by simp, h⟩
    | cons g rest =>
      simp only [joinFields, List.mem_append] at h
      rcases h with (hf | hs) | ht
      · exact .inr ⟨f, by simp, hf⟩
      · exact .inl hs
      · rcases ih ht with hs | ⟨k, hk, hx⟩
        · exact .inl hs
        · exact .inr ⟨k, by simp [hk], hx⟩

/-- A text made of failed attempts: proper prefixes of the separator, each followed by an
element that is not the separator's next one. -/
inductive Broken (sep : List α) : List α → Prop where
  | nil : Broken sep []
  | attempt (k : Nat) (b : α) (rest : List α) : k < sep.length → sep[k]? ≠ some b →
      Broken sep rest → Broken sep (sep.take k ++ b :: rest)

theorem take_succ_of_getElem? {sep : List α} {k : Nat} {b : α} (h : sep[k]? = some b) :
    sep.take (k + 1) = sep.take k ++ [b] := by
  rw [List.take_add_one, h]
  rfl

theorem broken_of_not_mem {sep text : List α} {first : α} (head : sep[0]? = some first)
    (absent : first ∉ text) : Broken sep text := by
  have hk : 0 < sep.length := by
    by_contra h
    simp [List.getElem?_eq_none (Nat.le_of_not_lt h)] at head
  induction text with
  | nil => exact .nil
  | cons b rest ih =>
    have other : sep[0]? ≠ some b := by
      rw [head]
      intro h
      exact absent (by simp [Option.some.inj h])
    have tail := ih (fun h => absent (List.mem_cons_of_mem b h))
    simpa using Broken.attempt 0 b rest hk other tail

variable [DecidableEq α]

def advance (sep : List α) (k : Nat) (b : α) : Nat := if sep[k]? = some b then k + 1 else 0

/-- Read up to the end of the first reported separator, from `k` matched elements. -/
def cut (sep : List α) : Nat → List α → Option (List α × List α)
  | _, [] => none
  | k, b :: rest =>
    if advance sep k b = sep.length then some ([b], rest)
    else (cut sep (advance sep k b) rest).map fun r => (b :: r.1, r.2)

/-- No report while the text is read, and nothing matched at its end. -/
def Idle (sep : List α) : Nat → List α → Prop
  | k, [] => k = 0
  | k, b :: rest => advance sep k b ≠ sep.length ∧ Idle sep (advance sep k b) rest

theorem cut_append {sep : List α} {k : Nat} {text front back : List α}
    (h : cut sep k text = some (front, back)) : text = front ++ back := by
  induction text generalizing k front with
  | nil => simp [cut] at h
  | cons b rest ih =>
    unfold cut at h
    split at h
    · cases h
      rfl
    · obtain ⟨⟨p, r⟩, hc, he⟩ := Option.map_eq_some_iff.mp h
      cases he
      rw [ih hc]
      rfl

/-- A reported separator is one: with the elements matched before, it ends the text read. -/
theorem cut_sound {sep : List α} {k : Nat} {text front back : List α} (hk : k < sep.length)
    (h : cut sep k text = some (front, back)) : sep <:+ sep.take k ++ front := by
  induction text generalizing k front with
  | nil => simp [cut] at h
  | cons b rest ih =>
    unfold cut at h
    by_cases hb : sep[k]? = some b
    · have step := take_succ_of_getElem? hb
      simp only [advance, if_pos hb] at h
      split at h
      · rename_i full
        cases h
        rw [← step, full, List.take_length]
      · rename_i short
        obtain ⟨⟨p, r⟩, hc, he⟩ := Option.map_eq_some_iff.mp h
        cases he
        have tail := ih (by omega) hc
        simpa [step] using tail
    · have positive : sep.length ≠ 0 := by omega
      simp only [advance, if_neg hb, if_neg positive.symm] at h
      obtain ⟨⟨p, r⟩, hc, he⟩ := Option.map_eq_some_iff.mp h
      cases he
      have tail := ih (by omega) hc
      simp only [List.take_zero, List.nil_append] at tail
      exact tail.trans ⟨sep.take k ++ [b], by simp⟩

theorem cut_none_of_absent {sep text : List α} (positive : sep ≠ [])
    (absent : ¬ sep <:+: text) : cut sep 0 text = none := by
  have hk : 0 < sep.length := List.length_pos_of_ne_nil positive
  cases h : cut sep 0 text with
  | none => rfl
  | some r =>
    obtain ⟨front, back⟩ := r
    have suffix := cut_sound hk h
    rw [List.take_zero, List.nil_append] at suffix
    have whole : text = front ++ back := cut_append h
    exact absurd (suffix.isInfix.trans (whole ▸ List.infix_append' [] front back)) absent

theorem cut_rest {sep : List α} {k : Nat} (hk : k < sep.length) (back : List α) :
    cut sep k (sep.drop k ++ back) = some (sep.drop k, back) := by
  induction h : sep.length - k generalizing k with
  | zero => omega
  | succ n ih =>
    have next : sep[k]? = some sep[k] := List.getElem?_eq_getElem hk
    rw [List.drop_eq_getElem_cons hk]
    simp only [List.cons_append, cut, advance, if_pos next]
    split
    · rename_i full
      rw [full, List.drop_length]
      rfl
    · rename_i short
      rw [ih (by omega) (by omega)]
      rfl

theorem cut_idle {sep : List α} {k : Nat} {text : List α} (positive : sep ≠ [])
    (idle : Idle sep k text) (back : List α) :
    cut sep k (text ++ sep ++ back) = some (text ++ sep, back) := by
  induction text generalizing k with
  | nil =>
    obtain rfl : k = 0 := idle
    simpa using cut_rest (List.length_pos_of_ne_nil positive) back
  | cons b rest ih =>
    simp only [List.cons_append, cut, if_neg idle.1]
    rw [ih idle.2]
    rfl

/-- A report comes after straight matches only, or after a mismatch and a whole separator. -/
theorem cut_length {sep : List α} {k : Nat} {text front back : List α} (hk : k < sep.length)
    (h : cut sep k text = some (front, back)) :
    front.length + k = sep.length ∨ sep.length < front.length := by
  induction text generalizing k front with
  | nil => simp [cut] at h
  | cons b rest ih =>
    unfold cut at h
    by_cases hb : sep[k]? = some b
    · simp only [advance, if_pos hb] at h
      split at h
      · cases h
        simp only [List.length_singleton]
        omega
      · obtain ⟨⟨p, r⟩, hc, he⟩ := Option.map_eq_some_iff.mp h
        cases he
        have tail := ih (by omega) hc
        simp only [List.length_cons]
        omega
    · have positive : 0 ≠ sep.length := by omega
      simp only [advance, if_neg hb, if_neg positive] at h
      obtain ⟨⟨p, r⟩, hc, he⟩ := Option.map_eq_some_iff.mp h
      cases he
      have tail := ih (by omega) hc
      simp only [List.length_cons]
      omega

theorem advance_lt {sep : List α} {k : Nat} {b : α} (hk : k < sep.length)
    (short : advance sep k b ≠ sep.length) : advance sep k b < sep.length := by
  by_cases hb : sep[k]? = some b
  · rw [advance, if_pos hb] at short ⊢
    omega
  · rw [advance, if_neg hb]
    omega

/-- If exactly the last separator is reported, nothing was matched before it began. -/
theorem idle_of_cut {sep : List α} {k : Nat} {text back : List α} (hk : k < sep.length)
    (h : cut sep k (text ++ sep ++ back) = some (text ++ sep, back)) : Idle sep k text := by
  induction text generalizing k with
  | nil =>
    have straight := cut_length hk h
    simp only [List.nil_append] at straight
    change k = 0
    omega
  | cons b rest ih =>
    simp only [List.cons_append, cut] at h
    split at h
    · have nonempty : rest ++ sep ≠ [] := by
        have := List.length_pos_iff.mp (Nat.zero_lt_of_lt hk)
        simp [this]
      simp_all
    · rename_i short
      obtain ⟨⟨p, r⟩, hc, he⟩ := Option.map_eq_some_iff.mp h
      simp only [Prod.mk.injEq, List.cons.injEq, true_and] at he
      obtain ⟨rfl, rfl⟩ := he
      exact ⟨short, ih (advance_lt hk short) hc⟩

theorem idle_take_append (sep : List α) (j k : Nat) (text : List α) (hk : j + k < sep.length) :
    Idle sep j ((sep.drop j).take k ++ text) ↔ Idle sep (j + k) text := by
  induction k generalizing j with
  | zero => simp
  | succ k ih =>
    have hj : j < sep.length := by omega
    have next : sep[j]? = some sep[j] := List.getElem?_eq_getElem hj
    rw [List.drop_eq_getElem_cons hj, List.take_succ_cons, List.cons_append]
    have short : j + 1 ≠ sep.length := by omega
    simp only [Idle, advance, if_pos next, ne_eq, short, not_false_eq_true, true_and]
    rw [ih (j + 1) (by omega), Nat.add_right_comm j 1 k, Nat.add_assoc]

theorem broken_of_idle {sep : List α} {k : Nat} {text : List α} (hk : k < sep.length)
    (idle : Idle sep k text) : Broken sep (sep.take k ++ text) := by
  induction text generalizing k with
  | nil =>
    obtain rfl : k = 0 := idle
    exact .nil
  | cons b rest ih =>
    have tail := ih (advance_lt hk idle.1) idle.2
    by_cases hb : sep[k]? = some b
    · simpa only [advance, if_pos hb, take_succ_of_getElem? hb, List.append_assoc,
        List.singleton_append] using tail
    · simp only [advance, if_neg hb, List.take_zero, List.nil_append] at tail
      exact .attempt k b rest hk hb tail

theorem idle_of_broken {sep text : List α} (broken : Broken sep text) : Idle sep 0 text := by
  induction broken with
  | nil => rfl
  | attempt k b rest hk hb _ ih =>
    have start := idle_take_append sep 0 k (b :: rest) (by omega)
    rw [List.drop_zero, Nat.zero_add] at start
    refine start.mpr ⟨?_, ?_⟩
    · rw [advance, if_neg hb]
      omega
    · rwa [advance, if_neg hb]

theorem broken_iff_idle {sep text : List α} (positive : sep ≠ []) :
    Broken sep text ↔ Idle sep 0 text := by
  refine ⟨idle_of_broken, fun idle => ?_⟩
  simpa using broken_of_idle (List.length_pos_of_ne_nil positive) idle

/-- How much of the separator is matched behind a text. -/
def matched (sep : List α) (k : Nat) (text : List α) : Nat := text.foldl (advance sep) k

/-- Where nothing is reported on the way, only the end of the text decides. -/
theorem idle_iff_matched {sep : List α} {k : Nat} {text : List α}
    (quiet : ∀ front, front <+: text → front ≠ [] → matched sep k front ≠ sep.length) :
    Idle sep k text ↔ matched sep k text = 0 := by
  induction text generalizing k with
  | nil => exact Iff.rfl
  | cons b rest ih =>
    have first : advance sep k b ≠ sep.length :=
      quiet [b] ⟨rest, rfl⟩ (List.cons_ne_nil b [])
    have tail := ih fun front prefix_rest _ =>
      quiet (b :: front) (List.cons_prefix_cons.mpr ⟨rfl, prefix_rest⟩) (List.cons_ne_nil b front)
    constructor
    · rintro ⟨-, idle⟩
      exact tail.mp idle
    · intro none
      exact ⟨first, tail.mpr none⟩

instance decidableIdle (sep : List α) : (k : Nat) → (text : List α) → Decidable (Idle sep k text)
  | k, [] => inferInstanceAs (Decidable (k = 0))
  | k, b :: rest =>
    have := decidableIdle sep (advance sep k b) rest
    inferInstanceAs (Decidable (_ ∧ Idle sep (advance sep k b) rest))

/-- The exact condition for a field to be delimited by the separator that follows it. -/
theorem cut_iff_broken {sep : List α} (positive : sep ≠ []) (text back : List α) :
    cut sep 0 (text ++ sep ++ back) = some (text ++ sep, back) ↔ Broken sep text := by
  have hk : 0 < sep.length := List.length_pos_of_ne_nil positive
  constructor
  · intro h
    simpa using broken_of_idle hk (idle_of_cut hk h)
  · intro broken
    exact cut_idle positive (idle_of_broken broken) back

end CppMyth.Library
