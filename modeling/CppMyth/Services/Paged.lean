import CppMyth.Library.OrderedMap
import CppMyth.Socket

/-! The paged fetches of `mythwsapi.cpp`. Each asks for a page, takes the items of the reply and
goes on while pages are full. Their counters are 32-bit, signed in some and unsigned in others. -/
namespace CppMyth.WSAPI
open Library

/-- What the backend answers to a page: a failure or a content that is not an object, or a list
with the version of its protocol. -/
inductive Reply (N : Type) where
  | failed
  | list (protoVer : Nat) (nodes : List N)

/-- The request of a page. Its other parameters are the same for all pages of a fetch. -/
structure Query where
  service : List UInt8
  startIndex : Nat
  count : Nat
  deriving DecidableEq, Repr

/-- A backend that serves slices of a list. -/
def serves {N : Type} (proto : Nat) (nodes : List N) (q : Query) : Reply N :=
  .list proto (if q.count = 0 then nodes.drop q.startIndex
    else (nodes.drop q.startIndex).take q.count)

inductive Counter where
  | int32 | uint32
  deriving DecidableEq, Repr

/-- The value of a counter that has reached `v`. The overflow of a signed one is undefined. -/
def Counter.wrap : Counter → Nat → Option Nat
  | .int32, v => if v < 2 ^ 31 then some v else none
  | .uint32, v => some (v % 2 ^ 32)

/-- What the fetches differ in: the service, the type of their counters, the number of items
asked for with 0 for all of them, and what is done with an item. -/
structure Paging (N R : Type) where
  service : List UInt8
  counter : Counter
  n : Nat
  collect : R → N → R

/-- `nodes` are the items that were gone through, in order. -/
structure Fetched (N R : Type) where
  nodes : List N
  ret : R
  invalidated : Bool

variable {N R : Type}

/-- The loop of a fetch, for `fuel` pages at most. -/
def fetchLoop (p : Paging N R) (proto : Nat) (backend : Query → Reply N) :
    Nat → Nat → Nat → Nat → List N → R → Option (Fetched N R)
  | 0, _, _, _, _, _ => none
  | fuel + 1, reqIndex, reqCount, total, nodes, ret =>
    -- Adjust the packet size
    let reqCount := if p.n ≠ 0 ∧ reqCount > p.n - total then p.n - total else reqCount
    match backend ⟨p.service, reqIndex, reqCount⟩ with
    | .failed => some ⟨nodes, ret, false⟩
    | .list protoVer page =>
      if protoVer ≠ proto then some ⟨nodes, ret, true⟩
      else
        match p.counter.wrap page.length, p.counter.wrap (reqIndex + page.length) with
        | some count, some next =>
          let total := (total + page.length) % 2 ^ 32
          let ret := page.foldl p.collect ret
          if count = reqCount ∧ (p.n = 0 ∨ p.n > total) then
            fetchLoop p proto backend fuel next reqCount total (nodes ++ page) ret
          else some ⟨nodes ++ page, ret, false⟩
        | _, _ => none

/-- `FETCHSIZE` -/
def fetchSize : Nat := 100
/-- `FETCHSIZE_L` -/
def fetchSizeL : Nat := 1000

def fetch (p : Paging N R) (proto : Nat) (backend : Query → Reply N) (reqCount : Nat)
    (ret : R) (fuel : Nat) : Option (Fetched N R) :=
  fetchLoop p proto backend fuel 0 reqCount 0 [] ret

/-- What BindObject makes of the nodes of a reply, and the fields that the fetches look at.
`record` includes ProcessRecordIN, `guideProgram` is given the channel of the program. -/
structure Bindings (N C P S : Type) where
  channel : N → C
  chanId : C → UInt32
  chanNum : C → List UInt8
  visible : C → Bool
  program : N → P
  startTime : P → Int64
  record : N → S
  programs : N → List N
  guideProgram : C → N → P

section Fetches

variable {C P S : Type} (b : Bindings N C P S) (proto : Nat) (backend : Query → Reply N)

def selected (onlyVisible : Bool) (channel : C) : Bool :=
  b.chanId channel ≠ 0 && b.chanNum channel ≠ [] && (!onlyVisible || b.visible channel)

def getChannelList1_2 (onlyVisible : Bool) : Nat → Option (Fetched N (List C)) :=
  let collect := fun ret node =>
    let channel := b.channel node
    if selected b onlyVisible channel then ret ++ [channel] else ret
  fetch ⟨ascii "/Channel/GetChannelInfoList", .int32, 0, collect⟩ proto backend fetchSize []

/-- `FETCHSIZE / (int)(1.0 + d / (3 * 86400))`. Doubles are exact enough for the integer part,
and a value that no `int` holds makes the conversion undefined. -/
def guideCount (starttime endtime : Int) : Option Nat :=
  let d := endtime - starttime
  if d > 0 then
    let days := 1 + d.toNat / (3 * 86400)
    if days < 2 ^ 31 then some (fetchSize / days) else none
  else some fetchSize

def programMap (chan : N) : OrderedMap Int64 P :=
  (b.programs chan).foldl (fun pmap node =>
    let program := b.guideProgram (b.channel chan) node
    pmap.insert (b.startTime program, program)) .empty

def getProgramGuide2_2 (starttime endtime : Int) (fuel : Nat) :
    Option (Fetched N (OrderedMap UInt32 (OrderedMap Int64 P))) :=
  let collect := fun ret chan => ret.insert (b.chanId (b.channel chan), programMap b chan)
  (guideCount starttime endtime).bind fun reqCount =>
    fetch ⟨ascii "/Guide/GetProgramGuide", .uint32, 0, collect⟩ proto backend reqCount .empty fuel

def getProgramList2_2 : Nat → Option (Fetched N (OrderedMap Int64 P)) :=
  let collect := fun ret node =>
    let program := b.program node
    ret.insert (b.startTime program, program)
  fetch ⟨ascii "/Guide/GetProgramList", .uint32, 0, collect⟩ proto backend fetchSizeL .empty

def getRecordedList1_5 (n : UInt32) : Nat → Option (Fetched N (List P)) :=
  let collect := fun ret node => ret ++ [b.program node]
  fetch ⟨ascii "/Dvr/GetRecordedList", .uint32, n.toNat, collect⟩ proto backend fetchSize []

def getRecordScheduleList1_5 : Nat → Option (Fetched N (List S)) :=
  let collect := fun ret node => ret ++ [b.record node]
  fetch ⟨ascii "/Dvr/GetRecordScheduleList", .int32, 0, collect⟩ proto backend fetchSize []

def getUpcomingList2_2 : Nat → Option (Fetched N (List P)) :=
  let collect := fun ret node => ret ++ [b.program node]
  fetch ⟨ascii "/Dvr/GetUpcomingList", .int32, 0, collect⟩ proto backend fetchSize []

def getConflictList1_5 : Nat → Option (Fetched N (List P)) :=
  let collect := fun ret node => ret ++ [b.program node]
  fetch ⟨ascii "/Dvr/GetConflictList", .int32, 0, collect⟩ proto backend fetchSize []

def getExpiringList1_5 : Nat → Option (Fetched N (List P)) :=
  let collect := fun ret node => ret ++ [b.program node]
  fetch ⟨ascii "/Dvr/GetExpiringList", .int32, 0, collect⟩ proto backend fetchSize []

end Fetches

/-- The fetch ends and has gone through the items in order, with such a result. -/
def Collects (fetch : Nat → Option (Fetched N R)) (nodes : List N) (result : R → Prop) : Prop :=
  ∃ fuel ret, fetch fuel = some ⟨nodes, ret, false⟩ ∧ result ret

/-- A map has each entry once, whatever the order they came in; its own order is that of the
keys. -/
def Holds {K V : Type} [LT K] (entries : List (K × V)) (map : OrderedMap K V) : Prop :=
  map.entries.Perm entries

/-- A list of `len` items is within what the counters of a fetch by pages of `reqCount` can
count. With 0 the backend gives all the items at once, and the count of a page is 0 only for a
list that has none, or one that wraps it. -/
def Fits : Counter → Nat → Nat → Prop
  | .int32, _, len => len < 2 ^ 31
  | .uint32, 0, len => len % 2 ^ 32 ≠ 0
  | .uint32, reqCount, len => reqCount * (len / reqCount) < 2 ^ 32

section Loop

variable {p : Paging N R} {proto : Nat} {nodes : List N} {reqCount : Nat}

theorem fetchLoop_page (unlimited : p.n = 0) (fuel i total : Nat) (acc : List N) (ret : R)
    {page : List N} {len count next : Nat}
    (slice : (if reqCount = 0 then nodes.drop i else (nodes.drop i).take reqCount) = page)
    (length : page.length = len) (counted : p.counter.wrap len = some count)
    (stepped : p.counter.wrap (i + len) = some next) :
    fetchLoop p proto (serves proto nodes) (fuel + 1) i reqCount total acc ret =
      if count = reqCount then
        fetchLoop p proto (serves proto nodes) fuel next reqCount ((total + len) % 2 ^ 32)
          (acc ++ page) (page.foldl p.collect ret)
      else some ⟨acc ++ page, page.foldl p.collect ret, false⟩ := by
  subst length
  simp only [fetchLoop, unlimited, ne_eq, not_true_eq_false, false_and, if_false, serves,
    slice, counted, stepped, true_or, and_true]

theorem slice_length (nodes : List N) (positive : 0 < reqCount) (i : Nat) :
    (if reqCount = 0 then nodes.drop i else (nodes.drop i).take reqCount) =
        (nodes.drop i).take reqCount ∧
      ((nodes.drop i).take reqCount).length = min reqCount (nodes.length - i) := by
  rw [if_neg (Nat.ne_of_gt positive), List.length_take, List.length_drop]
  exact ⟨rfl, rfl⟩

theorem wrap_small (counter : Counter) {v : Nat} (small : v < 2 ^ 31) :
    counter.wrap v = some v := by
  cases counter with
  | int32 => rw [Counter.wrap, if_pos small]
  | uint32 => rw [Counter.wrap, Nat.mod_eq_of_lt (Nat.lt_trans small (by decide))]

theorem Fits.next (fits : Fits p.counter reqCount nodes.length) (positive : 0 < reqCount) {k : Nat}
    (full : reqCount * k + reqCount ≤ nodes.length) :
    p.counter.wrap (reqCount * k + reqCount) = some (reqCount * (k + 1)) := by
  rw [← Nat.mul_succ] at full ⊢
  cases hc : p.counter with
  | int32 =>
    rw [hc] at fits
    have below : nodes.length < 2 ^ 31 := fits
    rw [Counter.wrap, if_pos (Nat.lt_of_le_of_lt full below)]
  | uint32 =>
    rw [hc] at fits
    obtain ⟨c, rfl⟩ := Nat.exists_eq_succ_of_ne_zero (Nat.ne_of_gt positive)
    have below : c.succ * (nodes.length / c.succ) < 2 ^ 32 := fits
    have quotient : k + 1 ≤ nodes.length / c.succ := by
      rw [Nat.le_div_iff_mul_le positive, Nat.mul_comm]
      exact full
    have less := Nat.lt_of_le_of_lt (Nat.mul_le_mul_left c.succ quotient) below
    rw [Counter.wrap, Nat.mod_eq_of_lt less]

theorem Fits.last (fits : Fits p.counter reqCount nodes.length) (i : Nat)
    (inside : i ≤ nodes.length) : ∃ next, p.counter.wrap i = some next := by
  cases hc : p.counter with
  | int32 =>
    rw [hc] at fits
    have below : nodes.length < 2 ^ 31 := fits
    exact ⟨i, by rw [Counter.wrap, if_pos (Nat.lt_of_le_of_lt inside below)]⟩
  | uint32 => exact ⟨_, rfl⟩

theorem fetchLoop_completes (unlimited : p.n = 0) (positive : 0 < reqCount)
    (small : reqCount < 2 ^ 31) (fits : Fits p.counter reqCount nodes.length) (fuel k total : Nat)
    (acc : List N) (ret : R) (inside : reqCount * k ≤ nodes.length)
    (enough : nodes.length - reqCount * k < fuel) :
    fetchLoop p proto (serves proto nodes) fuel (reqCount * k) reqCount total acc ret =
      some ⟨acc ++ nodes.drop (reqCount * k), (nodes.drop (reqCount * k)).foldl p.collect ret,
        false⟩ := by
  induction fuel generalizing k total acc ret with
  | zero => exact absurd enough (Nat.not_lt_zero _)
  | succ fuel ih =>
    obtain ⟨slice, length⟩ := slice_length nodes positive (reqCount * k)
    by_cases full : reqCount * k + reqCount ≤ nodes.length
    · rw [Nat.min_eq_left (by omega)] at length
      have after : nodes.drop (reqCount * (k + 1)) = (nodes.drop (reqCount * k)).drop reqCount := by
        rw [List.drop_drop, Nat.mul_succ]
      rw [fetchLoop_page unlimited fuel _ total acc ret slice length (wrap_small _ small)
        (fits.next positive full), if_pos rfl]
      rw [ih (k + 1) _ _ _ (by rw [Nat.mul_succ]; exact full) (by rw [Nat.mul_succ]; omega), after,
        List.append_assoc, ← List.foldl_append, List.take_append_drop]
    · rw [Nat.min_eq_right (by omega)] at length
      have whole : (nodes.drop (reqCount * k)).take reqCount = nodes.drop (reqCount * k) := by
        apply List.take_of_length_le
        rw [List.length_drop]
        omega
      obtain ⟨next, stepped⟩ := fits.last (reqCount * k + (nodes.length - reqCount * k)) (by omega)
      rw [fetchLoop_page unlimited fuel _ total acc ret slice length
        (wrap_small _ (by omega)) stepped, if_neg (by omega), whole]

theorem fetchLoop_overflows (unlimited : p.n = 0) (signed : p.counter = .int32)
    (positive : 0 < reqCount) (long : 2 ^ 31 ≤ nodes.length) (fuel i total : Nat) (acc : List N)
    (ret : R) (inside : i ≤ nodes.length) :
    fetchLoop p proto (serves proto nodes) fuel i reqCount total acc ret = none := by
  induction fuel generalizing i total acc ret with
  | zero => rfl
  | succ fuel ih =>
    obtain ⟨slice, length⟩ := slice_length nodes positive i
    by_cases below : i + min reqCount (nodes.length - i) < 2 ^ 31
    · have full : min reqCount (nodes.length - i) = reqCount := by omega
      have counted : p.counter.wrap (min reqCount (nodes.length - i)) = some reqCount := by
        rw [signed, Counter.wrap, if_pos (by omega), full]
      have stepped : p.counter.wrap (i + min reqCount (nodes.length - i)) =
          some (i + reqCount) := by
        rw [signed, Counter.wrap, if_pos below, full]
      rw [fetchLoop_page unlimited fuel i total acc ret slice length counted stepped, if_pos rfl]
      exact ih _ _ _ _ (by omega)
    · simp only [fetchLoop, unlimited, ne_eq, not_true_eq_false, false_and, if_false, serves,
        slice, length, signed, Counter.wrap, if_neg below]
      split
      · rename_i undefined
        cases undefined
      · rfl

/-- What was gone through stays at the front of what a fetch has gone through, and its result is
what it makes of the items. -/
theorem fetchLoop_made {backend : Query → Reply N} (fuel i total : Nat) (acc : List N)
    (ret : R) {fetched : Fetched N R}
    (result : fetchLoop p proto backend fuel i reqCount total acc ret = some fetched) :
    ∃ rest, fetched.nodes = acc ++ rest ∧ fetched.ret = rest.foldl p.collect ret := by
  induction fuel generalizing i reqCount total acc ret with
  | zero => cases result
  | succ fuel ih =>
    unfold fetchLoop at result
    simp only at result
    generalize (if p.n ≠ 0 ∧ reqCount > p.n - total then p.n - total else reqCount) = asked
      at result
    split at result
    · cases result
      exact ⟨[], (List.append_nil acc).symm, rfl⟩
    · split at result
      · cases result
        exact ⟨[], (List.append_nil acc).symm, rfl⟩
      · rename_i page _ _
        split at result
        · split at result
          · obtain ⟨rest, nodes, made⟩ := ih _ _ _ _ result
            exact ⟨page ++ rest, by rw [nodes, List.append_assoc], by rw [made, List.foldl_append]⟩
          · cases result
            exact ⟨page, rfl, rfl⟩
        · cases result

/-- A page that starts at an item that was gone through. -/
theorem fetchLoop_again (unlimited : p.n = 0) (unsigned : p.counter = .uint32)
    (positive : 0 < reqCount) (small : reqCount < 2 ^ 31) (distinct : nodes.Nodup)
    (fuel i gone total : Nat) (ret : R) (full : i + reqCount ≤ nodes.length) (before : i < gone)
    {fetched : Fetched N R}
    (result : fetchLoop p proto (serves proto nodes) fuel i reqCount total (nodes.take gone) ret =
      some fetched) : fetched.nodes ≠ nodes := by
  cases fuel with
  | zero => cases result
  | succ fuel =>
    obtain ⟨slice, length⟩ := slice_length nodes positive i
    rw [Nat.min_eq_left (by omega)] at length
    have counted := wrap_small p.counter small
    have stepped : p.counter.wrap (i + reqCount) = some ((i + reqCount) % 2 ^ 32) := by
      rw [unsigned]
      rfl
    rw [fetchLoop_page unlimited fuel i _ _ _ slice length counted stepped, if_pos rfl] at result
    obtain ⟨rest, front, -⟩ := fetchLoop_made _ _ _ _ _ result
    intro same
    rw [same] at front
    have inNodes : i < nodes.length := by omega
    have first : nodes[i] ∈ nodes.take gone :=
      List.mem_take_iff_getElem.mpr ⟨i, by omega, rfl⟩
    have second : nodes[i] ∈ (nodes.drop i).take reqCount := by
      rw [List.drop_eq_getElem_cons inNodes]
      obtain ⟨c, rfl⟩ := Nat.exists_eq_succ_of_ne_zero (Nat.ne_of_gt positive)
      rw [List.take_succ_cons]
      exact List.mem_cons_self
    rw [front] at distinct
    have apart := (List.nodup_append.mp (List.nodup_append.mp distinct).1).2.2
    exact apart _ first _ second rfl

/-- The index of an unsigned fetch wraps before the last page: an item is fetched again. -/
theorem fetchLoop_repeats (unlimited : p.n = 0) (unsigned : p.counter = .uint32)
    (positive : 0 < reqCount) (small : reqCount < 2 ^ 31) (distinct : nodes.Nodup)
    (long : 2 ^ 32 ≤ reqCount * (nodes.length / reqCount)) (fuel k total : Nat) (ret : R)
    (inside : reqCount * k < 2 ^ 32) {fetched : Fetched N R}
    (result : fetchLoop p proto (serves proto nodes) fuel (reqCount * k) reqCount total
      (nodes.take (reqCount * k)) ret = some fetched) : fetched.nodes ≠ nodes := by
  induction fuel generalizing k total ret with
  | zero => cases result
  | succ fuel ih =>
    have quotient : k + 1 ≤ nodes.length / reqCount :=
      Nat.lt_of_mul_lt_mul_left (Nat.lt_of_lt_of_le inside long)
    have whole : reqCount * (nodes.length / reqCount) ≤ nodes.length := Nat.mul_div_le _ _
    have full := Nat.le_trans (Nat.mul_le_mul_left reqCount quotient) whole
    have after : nodes.take (reqCount * k) ++ (nodes.drop (reqCount * k)).take reqCount =
        nodes.take (reqCount * (k + 1)) := by
      rw [Nat.mul_succ, List.take_add]
    have next : reqCount * (k + 1) = reqCount * k + reqCount := Nat.mul_succ _ _
    obtain ⟨slice, length⟩ := slice_length nodes positive (reqCount * k)
    rw [Nat.min_eq_left (by omega)] at length
    have counted := wrap_small p.counter small
    have stepped : p.counter.wrap (reqCount * k + reqCount) =
        some (reqCount * (k + 1) % 2 ^ 32) := by
      rw [unsigned, next]
      rfl
    rw [fetchLoop_page unlimited fuel _ total _ ret slice length counted stepped, if_pos rfl,
      after] at result
    by_cases below : reqCount * (k + 1) < 2 ^ 32
    · rw [Nat.mod_eq_of_lt below] at result
      exact ih (k + 1) _ _ below result
    · -- the next page starts at an item that was gone through
      have again : reqCount * (k + 1) % 2 ^ 32 < reqCount := by
        rw [Nat.mod_eq_sub_mod (Nat.le_of_not_lt below), Nat.mod_eq_of_lt (by omega)]
        omega
      exact fetchLoop_again unlimited unsigned positive small distinct fuel _ _ _ _ (by omega)
        (by omega) result

theorem fetchLoop_hangs (unlimited : p.n = 0) (unsigned : p.counter = .uint32)
    (wraps : nodes.length % 2 ^ 32 = 0) (fuel total : Nat) (acc : List N) (ret : R) :
    fetchLoop p proto (serves proto nodes) fuel 0 0 total acc ret = none := by
  induction fuel generalizing total acc ret with
  | zero => rfl
  | succ fuel ih =>
    have counted : p.counter.wrap nodes.length = some 0 := by
      rw [unsigned, Counter.wrap, wraps]
    rw [fetchLoop_page unlimited fuel 0 total acc ret (if_pos rfl) rfl counted
      (by rw [List.drop_zero, Nat.zero_add]; exact counted), if_pos rfl]
    exact ih _ _ _

/-- The exact condition for a fetch without a limit to end with all items. -/
theorem fetch_ends_iff (proto : Nat) (unlimited : p.n = 0) (small : reqCount < 2 ^ 31)
    (paged : p.counter = .int32 → 0 < reqCount) (distinct : nodes.Nodup) (ret : R) :
    (∃ fuel made, fetch p proto (serves proto nodes) reqCount ret fuel =
      some ⟨nodes, made, false⟩) ↔ Fits p.counter reqCount nodes.length := by
  rcases Nat.eq_zero_or_pos reqCount with rfl | positive
  · have unsigned : p.counter = .uint32 := by
      cases hc : p.counter with
      | int32 => exact absurd (paged hc) (Nat.lt_irrefl 0)
      | uint32 => rfl
    rw [unsigned]
    constructor
    · rintro ⟨fuel, made, result⟩ wraps
      rw [fetch, fetchLoop_hangs unlimited unsigned wraps] at result
      cases result
    · intro fits
      refine ⟨1, nodes.foldl p.collect ret, ?_⟩
      have counted : p.counter.wrap nodes.length = some (nodes.length % 2 ^ 32) := by
        rw [unsigned, Counter.wrap]
      rw [fetch, fetchLoop_page unlimited 0 0 0 [] ret (if_pos rfl) rfl counted
        (by rw [List.drop_zero, Nat.zero_add]; exact counted), if_neg fits, List.drop_zero,
        List.nil_append]
  · constructor
    · rintro ⟨fuel, made, result⟩
      cases hc : p.counter with
      | int32 =>
        by_contra long
        rw [fetch, fetchLoop_overflows unlimited hc positive (Nat.le_of_not_lt long) _ _ _ _ _
          (Nat.zero_le _)] at result
        cases result
      | uint32 =>
        by_contra long
        obtain ⟨c, rfl⟩ := Nat.exists_eq_succ_of_ne_zero (Nat.ne_of_gt positive)
        exact fetchLoop_repeats unlimited hc positive small distinct (Nat.le_of_not_lt long) fuel
          0 0 ret (by rw [Nat.mul_zero]; decide) result rfl
    · intro fits
      have ends : fetchLoop p proto (serves proto nodes) (nodes.length + 1) (reqCount * 0) reqCount
          0 [] ret = _ :=
        fetchLoop_completes unlimited positive small fits _ 0 0 [] ret (Nat.zero_le _)
          (Nat.lt_succ_self _)
      rw [Nat.mul_zero, List.drop_zero, List.nil_append] at ends
      exact ⟨_, _, ends⟩

/-- Such a fetch gives what it makes of the items. -/
theorem fetch_collects_iff (unlimited : p.n = 0) (small : reqCount < 2 ^ 31)
    (paged : p.counter = .int32 → 0 < reqCount) (distinct : nodes.Nodup) (ret : R)
    (result : R → Prop) :
    Collects (fetch p proto (serves proto nodes) reqCount ret) nodes result ↔
      Fits p.counter reqCount nodes.length ∧ result (nodes.foldl p.collect ret) := by
  rw [← fetch_ends_iff proto unlimited small paged distinct ret]
  have only {fuel : Nat} {made : R}
      (ends : fetch p proto (serves proto nodes) reqCount ret fuel = some ⟨nodes, made, false⟩) :
      made = nodes.foldl p.collect ret := by
    obtain ⟨rest, all, made_of⟩ := fetchLoop_made _ _ _ _ _ ends
    obtain rfl : nodes = rest := all
    exact made_of
  constructor
  · rintro ⟨fuel, made, ends, holds⟩
    exact ⟨⟨fuel, made, ends⟩, only ends ▸ holds⟩
  · rintro ⟨⟨fuel, made, ends⟩, holds⟩
    exact ⟨fuel, made, ends, only ends ▸ holds⟩

/-- A fetch with a limit stops there, or at the end of the list. -/
theorem fetchLoop_limited (proto : Nat) (nodes : List N) (unsigned : p.counter = .uint32)
    (small : p.n < 2 ^ 32) (fuel i : Nat) (ret : R) (positive : 0 < reqCount) (below : i < p.n)
    (inside : i ≤ nodes.length) (enough : p.n - i < fuel) :
    fetchLoop p proto (serves proto nodes) fuel i reqCount i (nodes.take i) ret =
      some ⟨nodes.take p.n, ((nodes.take p.n).drop i).foldl p.collect ret, false⟩ := by
  induction fuel generalizing i reqCount ret with
  | zero => exact absurd enough (Nat.not_lt_zero _)
  | succ fuel ih =>
    unfold fetchLoop
    have bounds : 0 < (if p.n ≠ 0 ∧ reqCount > p.n - i then p.n - i else reqCount) ∧
        (if p.n ≠ 0 ∧ reqCount > p.n - i then p.n - i else reqCount) ≤ p.n - i := by
      split <;> omega
    generalize (if p.n ≠ 0 ∧ reqCount > p.n - i then p.n - i else reqCount) = asked at bounds ⊢
    obtain ⟨slice, length⟩ := slice_length nodes bounds.1 i
    generalize hm : min asked (nodes.length - i) = m at length
    have taken : nodes.take i ++ (nodes.drop i).take asked = nodes.take (i + m) := by
      rw [List.take_add]
      congr 1
      rw [← hm, ← List.length_drop, ← List.take_eq_take_min]
    have front : (nodes.drop i).take asked = ((nodes.take p.n).drop i).take m := by
      rw [List.drop_take, List.take_take, List.take_eq_take_iff, List.length_drop]
      omega
    have back : ((nodes.take p.n).drop i).drop m = (nodes.take p.n).drop (i + m) :=
      List.drop_drop
    have count : m % 2 ^ 32 = m := Nat.mod_eq_of_lt (by omega)
    have next : (i + m) % 2 ^ 32 = i + m := Nat.mod_eq_of_lt (by omega)
    simp only [serves, slice, length, unsigned, Counter.wrap, count, next, taken, ne_eq,
      not_true_eq_false, if_false]
    split
    · rename_i goes
      rw [ih (i + m) _ bounds.1 (by omega) (by omega) (by omega), front, ← back,
        ← List.foldl_append, List.take_append_drop]
    · rename_i stops
      have all : nodes.take (i + m) = nodes.take p.n := by
        rw [List.take_eq_take_iff]
        omega
      have rest : ((nodes.take p.n).drop i).take m = (nodes.take p.n).drop i := by
        apply List.take_of_length_le
        rw [List.length_drop, List.length_take]
        omega
      rw [all, front, rest]

end Loop

section Containers

theorem foldl_appends {T : Type} {collect : List T → N → List T} {g : N → List T}
    (step : ∀ ret node, collect ret node = ret ++ g node) (nodes : List N) (ret : List T) :
    nodes.foldl collect ret = ret ++ nodes.flatMap g := by
  induction nodes generalizing ret with
  | nil => simp
  | cons node nodes ih =>
    rw [List.foldl_cons, step, ih, List.append_assoc, List.flatMap_cons]

theorem foldl_pushes {T : Type} (f : N → T) (nodes : List N) :
    nodes.foldl (fun ret node => ret ++ [f node]) [] = nodes.map f := by
  rw [foldl_appends (fun ret node => rfl), List.nil_append, ← List.map_eq_flatMap]

theorem foldl_selects {T : Type} (f : N → T) (test : T → Bool) (nodes : List N) :
    nodes.foldl (fun ret node => if test (f node) then ret ++ [f node] else ret) [] =
      (nodes.map f).filter test := by
  have step : ∀ (ret : List T) node, (if test (f node) then ret ++ [f node] else ret) =
      ret ++ if test (f node) then [f node] else [] := by
    intro ret node
    split
    · rfl
    · exact (List.append_nil ret).symm
  rw [foldl_appends step, List.nil_append]
  induction nodes with
  | nil => rfl
  | cons node nodes ih =>
    rw [List.flatMap_cons, ih, List.map_cons, List.filter_cons]
    split <;> rfl

theorem pushes_collect_iff {T : Type} (service : List UInt8) (f : N → T) (proto : Nat)
    {nodes : List N} (distinct : nodes.Nodup) :
    Collects (fetch ⟨service, .int32, 0, fun ret node => ret ++ [f node]⟩ proto
      (serves proto nodes) fetchSize []) nodes (· = nodes.map f) ↔ nodes.length < 2 ^ 31 := by
  exact (fetch_collects_iff (p := ⟨service, .int32, 0, fun ret node => ret ++ [f node]⟩) rfl
    (by decide) (fun _ => by decide) distinct [] (· = nodes.map f)).trans
      (and_iff_left (foldl_pushes f nodes))

theorem inserts_collect_iff {K V : Type} [LE K] [LT K] [DecidableLT K] [Std.IsLinearOrder K]
    [Std.LawfulOrderLT K] (service : List UInt8) (entry : N → K × V) (proto : Nat)
    {nodes : List N} {reqCount : Nat} (small : reqCount < 2 ^ 31)
    (distinct : (nodes.map fun c => (entry c).1).Nodup) :
    Collects (fetch ⟨service, .uint32, 0, fun map c => map.insert (entry c)⟩ proto
      (serves proto nodes) reqCount OrderedMap.empty) nodes (Holds (nodes.map entry)) ↔
        Fits .uint32 reqCount nodes.length := by
  exact (fetch_collects_iff
    (p := ⟨service, .uint32, 0, fun (map : OrderedMap K V) c => map.insert (entry c)⟩) rfl small
    (fun signed => by cases signed) (List.Nodup.of_map _ distinct) .empty
    (Holds (nodes.map entry))).trans
      (and_iff_left (OrderedMap.foldl_insert_perm entry nodes .empty distinct))

theorem guideCount_le {starttime endtime : Int} {reqCount : Nat}
    (count : guideCount starttime endtime = some reqCount) : reqCount ≤ fetchSize := by
  unfold guideCount at count
  simp only at count
  split at count
  · split at count
    · cases count
      exact Nat.div_le_self _ _
    · cases count
  · cases count
    exact Nat.le_refl _

end Containers

section Results

variable {C P S : Type} (b : Bindings N C P S) (proto : Nat) {nodes : List N}

/-- The channels that its filter drops are gone through and not given. -/
theorem channels_collect_iff (distinct : nodes.Nodup) (onlyVisible : Bool)
    (result : List C → Prop) :
    Collects (getChannelList1_2 b proto (serves proto nodes) onlyVisible) nodes result ↔
      nodes.length < 2 ^ 31 ∧ result ((nodes.map b.channel).filter (selected b onlyVisible)) := by
  rw [← foldl_selects]
  exact fetch_collects_iff (p := ⟨ascii "/Channel/GetChannelInfoList", .int32, 0, _⟩) rfl
    (by decide) (fun _ => by decide) distinct [] result

theorem all_channels_collect_iff (distinct : nodes.Nodup) (onlyVisible : Bool) :
    Collects (getChannelList1_2 b proto (serves proto nodes) onlyVisible) nodes
        (· = nodes.map b.channel) ↔
      nodes.length < 2 ^ 31 ∧ ∀ node ∈ nodes, selected b onlyVisible (b.channel node) = true := by
  rw [channels_collect_iff b proto distinct, List.filter_eq_self, List.forall_mem_map]

/-- A span whose number of days no `int` holds has no page size. -/
theorem guide_collects_iff (starttime endtime : Int)
    (keys : (nodes.map fun c => b.chanId (b.channel c)).Nodup) :
    Collects (getProgramGuide2_2 b proto (serves proto nodes) starttime endtime) nodes
        (Holds (nodes.map fun c => (b.chanId (b.channel c), programMap b c))) ↔
      ∃ reqCount, guideCount starttime endtime = some reqCount ∧
        Fits .uint32 reqCount nodes.length := by
  cases count : guideCount starttime endtime with
  | none =>
    constructor
    · rintro ⟨fuel, ret, ends, -⟩
      rw [getProgramGuide2_2, count] at ends
      cases ends
    · rintro ⟨reqCount, impossible, -⟩
      cases impossible
  | some reqCount =>
    have small : reqCount < 2 ^ 31 := Nat.lt_of_le_of_lt (guideCount_le count) (by decide)
    have fetches := inserts_collect_iff (ascii "/Guide/GetProgramGuide")
      (fun c => (b.chanId (b.channel c), programMap b c)) proto small keys
    constructor
    · rintro ⟨fuel, ret, ends, holds⟩
      rw [getProgramGuide2_2, count] at ends
      exact ⟨reqCount, rfl, fetches.mp ⟨fuel, ret, ends, holds⟩⟩
    · rintro ⟨_, same, fits⟩
      cases same
      obtain ⟨fuel, ret, ends, holds⟩ := fetches.mpr fits
      refine ⟨fuel, ret, ?_, holds⟩
      rw [getProgramGuide2_2, count]
      exact ends

theorem recorded_collects_iff (distinct : nodes.Nodup) (n : UInt32) :
    Collects (getRecordedList1_5 b proto (serves proto nodes) n)
        (if n = 0 then nodes else nodes.take n.toNat)
        (· = (if n = 0 then nodes else nodes.take n.toNat).map b.program) ↔
      n ≠ 0 ∨ Fits .uint32 fetchSize nodes.length := by
  by_cases all : n = 0
  · subst all
    simp only [if_pos, ne_eq, not_true_eq_false, false_or]
    exact (fetch_collects_iff (p := ⟨ascii "/Dvr/GetRecordedList", .uint32, 0,
      fun ret node => ret ++ [b.program node]⟩) rfl (by decide) (fun signed => by cases signed)
      distinct [] (· = nodes.map b.program)).trans
        (and_iff_left (foldl_pushes b.program nodes))
  · have positive : 0 < n.toNat := by
      rcases Nat.eq_zero_or_pos n.toNat with zero | positive
      · exact absurd (UInt32.toNat_inj.mp zero) all
      · exact positive
    have ends : getRecordedList1_5 b proto (serves proto nodes) n (n.toNat + 1) =
        some ⟨nodes.take n.toNat, (nodes.take n.toNat).foldl _ [], false⟩ :=
      fetchLoop_limited (p := ⟨ascii "/Dvr/GetRecordedList", .uint32, n.toNat,
        fun ret node => ret ++ [b.program node]⟩) proto nodes rfl n.toNat_lt (n.toNat + 1) 0 []
        (by decide : 0 < fetchSize) positive (Nat.zero_le _) (Nat.lt_succ_self _)
    rw [foldl_pushes] at ends
    rw [if_neg all]
    exact iff_of_true ⟨_, _, ends, rfl⟩ (.inl all)

end Results

/-- Each fetch goes through all the items in order and gives each of them once, a list in their
order and a map in that of its keys, exactly when its counters can count the list and, for the
guide, its page size is one; the channel list moreover drops what its filter does not pass. -/
theorem fetches_collect_iff {C P S : Type} (b : Bindings N C P S) (proto : Nat) (nodes : List N)
    (distinct : nodes.Nodup) (onlyVisible : Bool) (starttime endtime : Int) (n : UInt32) :
    (Collects (getChannelList1_2 b proto (serves proto nodes) onlyVisible) nodes
        (· = nodes.map b.channel) ↔
      nodes.length < 2 ^ 31 ∧ ∀ node ∈ nodes, selected b onlyVisible (b.channel node) = true) ∧
    ((nodes.map fun c => b.chanId (b.channel c)).Nodup →
      (Collects (getProgramGuide2_2 b proto (serves proto nodes) starttime endtime) nodes
          (Holds (nodes.map fun c => (b.chanId (b.channel c), programMap b c))) ↔
        ∃ reqCount, guideCount starttime endtime = some reqCount ∧
          Fits .uint32 reqCount nodes.length)) ∧
    ((nodes.map fun c => b.startTime (b.program c)).Nodup →
      (Collects (getProgramList2_2 b proto (serves proto nodes)) nodes
          (Holds (nodes.map fun c => (b.startTime (b.program c), b.program c))) ↔
        Fits .uint32 fetchSizeL nodes.length)) ∧
    (Collects (getRecordedList1_5 b proto (serves proto nodes) n)
        (if n = 0 then nodes else nodes.take n.toNat)
        (· = (if n = 0 then nodes else nodes.take n.toNat).map b.program) ↔
      n ≠ 0 ∨ Fits .uint32 fetchSize nodes.length) ∧
    (Collects (getRecordScheduleList1_5 b proto (serves proto nodes)) nodes
        (· = nodes.map b.record) ↔ nodes.length < 2 ^ 31) ∧
    (Collects (getUpcomingList2_2 b proto (serves proto nodes)) nodes (· = nodes.map b.program) ↔
      nodes.length < 2 ^ 31) ∧
    (Collects (getConflictList1_5 b proto (serves proto nodes)) nodes (· = nodes.map b.program) ↔
      nodes.length < 2 ^ 31) ∧
    (Collects (getExpiringList1_5 b proto (serves proto nodes)) nodes (· = nodes.map b.program) ↔
      nodes.length < 2 ^ 31) := by
  refine ⟨all_channels_collect_iff b proto distinct onlyVisible,
    guide_collects_iff b proto starttime endtime, ?_, recorded_collects_iff b proto distinct n,
    pushes_collect_iff _ b.record proto distinct, pushes_collect_iff _ b.program proto distinct,
    pushes_collect_iff _ b.program proto distinct, pushes_collect_iff _ b.program proto distinct⟩
  intro keys
  exact inserts_collect_iff (ascii "/Guide/GetProgramList")
    (fun c => (b.startTime (b.program c), b.program c)) proto (by decide) keys

/-- Nodes that are numbers, for channels, programs and rules alike. -/
def numbered : Bindings Nat Nat Nat Nat where
  channel := id
  chanId := UInt32.ofNat
  chanNum c := [UInt8.ofNat c]
  visible _ := true
  program := id
  startTime p := Int64.ofNat p
  record := id
  programs c := [c]
  guideProgram _ node := node

theorem fetches_collect_iff_few :
    Collects (getChannelList1_2 numbered 96 (serves 96 [9, 7, 8]) true) [9, 7, 8] (· = [9, 7, 8]) ∧
      Collects (getProgramGuide2_2 numbered 96 (serves 96 [9, 7, 8]) 0 25920000) [9, 7, 8]
        (Holds ([9, 7, 8].map fun c => (UInt32.ofNat c, programMap numbered c))) ∧
      Collects (getRecordedList1_5 numbered 96 (serves 96 [9, 7, 8]) 2) [9, 7] (· = [9, 7]) := by
  have fetches := fetches_collect_iff numbered 96 [9, 7, 8] (by decide) true 0 25920000 2
  have some_items : ([9, 7, 8] : List Nat).length % 2 ^ 32 ≠ 0 := by decide
  exact ⟨fetches.1.mpr ⟨by decide, by decide⟩,
    (fetches.2.1 (by decide)).mpr ⟨0, by decide, some_items⟩,
    fetches.2.2.2.1.mpr (.inl (by decide))⟩

/-- A guide of 300 days is asked for by pages of 0 items, and an empty list ends no page. -/
theorem not_always_fetches_collect :
    ¬ ∀ (nodes : List Nat) (starttime endtime : Int),
      (nodes.map fun c => numbered.chanId (numbered.channel c)).Nodup →
        Collects (getProgramGuide2_2 numbered 96 (serves 96 nodes) starttime endtime) nodes
          (Holds (nodes.map fun c => (numbered.chanId (numbered.channel c),
            programMap numbered c))) := by
  intro claim
  obtain ⟨fuel, ret, ends, -⟩ := claim [] 0 25920000 (by decide)
  rw [getProgramGuide2_2, (by decide : guideCount 0 25920000 = some 0)] at ends
  rw [Option.bind_some, fetch, fetchLoop_hangs rfl rfl rfl] at ends
  cases ends

end CppMyth.WSAPI
