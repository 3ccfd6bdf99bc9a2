import CppMyth.Builtin.Numerals
import CppMyth.Library.Calendar

/-! The timestamps of `builtin.c`. A `time_t` is the integer it stands for; `gmtime_r` and
`timegm` are the conversions of the Gregorian calendar, and `mktime`, which depends on the
place, is a parameter. -/
namespace CppMyth
open Library.Calendar

/-- The fields of a `struct tm` that the code reads or writes. -/
structure Tm where
  tm_year : Int
  tm_mon : Int
  tm_mday : Int
  tm_hour : Int
  tm_min : Int
  tm_sec : Int
  deriving DecidableEq, Repr

namespace Builtin

def timegm (tm : Tm) : Int :=
  (Date.mk (tm.tm_year + 1900) tm.tm_mon tm.tm_mday).number * 86400 +
    (tm.tm_hour * 3600 + tm.tm_min * 60 + tm.tm_sec)

def gmtime (time : Int) : Tm :=
  let date := dateOf (time / 86400)
  let second := time % 86400
  ⟨date.year - 1900, date.month, date.day, second / 3600, second / 60 % 60, second % 60⟩

def INVALID_TIME : Int := 0
def TIMESTAMP_UTC_LEN : Nat := 20
def TIMESTAMP_LEN : Nat := 19
def DATESTAMP_LEN : Nat := 10

/-- What the length of the string and its separators say it is. -/
inductive TimeFormat where
  | utc | local | date
  deriving DecidableEq, Repr

def marked (buf : List UInt8) (marks : List (Nat × UInt8)) : Bool :=
  marks.all fun mark => buf[mark.1]? = some mark.2

def timeFormat (buf : List UInt8) : Option TimeFormat :=
  if buf.length = TIMESTAMP_UTC_LEN then
    if marked buf [(4, 45), (7, 45), (10, 84), (13, 58), (16, 58), (19, 90)] then some .utc
    else none
  else if buf.length = TIMESTAMP_LEN then
    if marked buf [(4, 45), (7, 45), (10, 84), (13, 58), (16, 58)] then some .local else none
  else if buf.length = DATESTAMP_LEN then
    if marked buf [(4, 45), (7, 45)] then some .date else none
  else none

/-- Every character but those the code has overwritten with a NUL is a digit. -/
def numeralsOnly (buf : List UInt8) : Bool :=
  (List.range buf.length).all fun i =>
    i ∈ [4, 7, 10, 13, 16, 19] || (buf[i]?.any isdigit)

/-- `atoi` on the `len` digits at a place. -/
def field (buf : List UInt8) (start len : Nat) : Nat :=
  digitsValue ((buf.drop start).take len)

/-- On an error the caller's time is `INVALID_TIME`. -/
def stringToTime (mktime : Tm → Int) (str : List UInt8) : Except ParseError Int :=
  -- empty string
  if str = [] then .ok INVALID_TIME
  else
    let buf := str.take TIMESTAMP_UTC_LEN
    match timeFormat buf with
    | none => .error .EINVAL
    | some format =>
      if ¬ numeralsOnly buf then .error .EINVAL
      else
        let tm_year := (field buf 0 4 : Int) - 1900
        let tm_mon := (field buf 5 2 : Int) - 1
        let tm_mday := (field buf 8 2 : Int)
        if tm_mon > 11 then .error .EINVAL
        else if tm_mday > 31 then .error .EINVAL
        else if format = .date then .ok (mktime ⟨tm_year, tm_mon, tm_mday, 0, 0, 0⟩)
        else
          let tm_hour := (field buf 11 2 : Int)
          let tm_min := (field buf 14 2 : Int)
          let tm_sec := (field buf 17 2 : Int)
          if tm_hour > 23 then .error .EINVAL
          else if tm_min > 59 then .error .EINVAL
          else if tm_sec > 59 then .error .EINVAL
          else
            let time_tm : Tm := ⟨tm_year, tm_mon, tm_mday, tm_hour, tm_min, tm_sec⟩
            if format = .utc then .ok (timegm time_tm) else .ok (mktime time_tm)

/-- The conversion of an `int` argument to `unsigned`. -/
def unsigned (i : Int) : Nat := (i % 2 ^ 32).toNat

def timeToIso8601utc (time : Int) : List UInt8 :=
  if time = INVALID_TIME then []
  else
    let time_tm := gmtime time
    -- yyyy-MM-ddTHH:mm:ssZ
    uintToStrdec (unsigned (time_tm.tm_year + 1900)) 4 true ++ 45 ::
      (uintToStrdec (unsigned (time_tm.tm_mon + 1)) 2 true ++ 45 ::
        (uintToStrdec (unsigned time_tm.tm_mday) 2 true ++ 84 ::
          (uintToStrdec (unsigned time_tm.tm_hour) 2 true ++ 58 ::
            (uintToStrdec (unsigned time_tm.tm_min) 2 true ++ 58 ::
              (uintToStrdec (unsigned time_tm.tm_sec) 2 true ++ [90])))))

theorem guard_ok {ε α : Type} {p : Prop} [Decidable p] {err : ε} {next : Except ε α} {a : α} :
    (if p then .error err else next) = .ok a ↔ ¬ p ∧ next = .ok a := by
  by_cases h : p <;> simp [h]

def layout (year month day hour min sec : Nat) : List UInt8 :=
  padded 4 year ++ 45 :: (padded 2 month ++ 45 :: (padded 2 day ++ 84 ::
    (padded 2 hour ++ 58 :: (padded 2 min ++ 58 :: (padded 2 sec ++ [90])))))

theorem layout_utc (year month day hour min sec : Nat) :
    timeFormat (layout year month day hour min sec) = some .utc := by
  simp [timeFormat, layout, padded, marked, TIMESTAMP_UTC_LEN]

theorem layout_numeralsOnly (year month day hour min sec : Nat) :
    numeralsOnly (layout year month day hour min sec) = true := by
  have decimal : ∀ n, isdigit (digit (n % 10)) = true := fun n =>
    isdigit_digit (Nat.mod_lt n (by decide))
  simp [numeralsOnly, layout, padded, List.range_succ, decimal]

/-- A string of the UTC format is laid out from its fields. -/
theorem layout_of_utc {buf : List UInt8} (format : timeFormat buf = some .utc)
    (numerals : numeralsOnly buf = true) :
    buf = layout (field buf 0 4) (field buf 5 2) (field buf 8 2) (field buf 11 2)
      (field buf 14 2) (field buf 17 2) ∧ field buf 0 4 < 10000 := by
  have len : buf.length = TIMESTAMP_UTC_LEN := by
    by_contra other
    rw [timeFormat, if_neg other] at format
    split at format
    · split at format <;> cases format
    · split at format
      · split at format <;> cases format
      · cases format
  match buf, len with
  | [y0, y1, y2, y3, s0, m0, m1, s1, d0, d1, s2, h0, h1, s3, n0, n1, s4, c0, c1, s5], _ =>
    have marks : s0 = 45 ∧ s1 = 45 ∧ s2 = 84 ∧ s3 = 58 ∧ s4 = 58 ∧ s5 = 90 := by
      simpa [timeFormat, marked, TIMESTAMP_UTC_LEN] using format
    obtain ⟨rfl, rfl, rfl, rfl, rfl, rfl⟩ := marks
    simp only [numeralsOnly] at numerals
    simp [List.range_succ] at numerals
    have year : ∀ c ∈ [y0, y1, y2, y3], isdigit c = true := by simp [numerals]
    have month : ∀ c ∈ [m0, m1], isdigit c = true := by simp [numerals]
    have day : ∀ c ∈ [d0, d1], isdigit c = true := by simp [numerals]
    have hour : ∀ c ∈ [h0, h1], isdigit c = true := by simp [numerals]
    have min : ∀ c ∈ [n0, n1], isdigit c = true := by simp [numerals]
    have sec : ∀ c ∈ [c0, c1], isdigit c = true := by simp [numerals]
    have parts := And.intro (padded_digitsValue year) <| And.intro (padded_digitsValue month) <|
      And.intro (padded_digitsValue day) <| And.intro (padded_digitsValue hour) <|
      And.intro (padded_digitsValue min) (padded_digitsValue sec)
    simp only [List.length_cons, List.length_nil, Nat.zero_add, Nat.reduceAdd] at parts
    constructor
    · simp [layout, field, parts]
    · have small := digitsValue_lt year
      simpa [field] using small

theorem timegm_gmtime (time : Int) : timegm (gmtime time) = time := by
  have date := number_dateOf (time / 86400)
  have year : (dateOf (time / 86400)).year - 1900 + 1900 = (dateOf (time / 86400)).year := by
    omega
  simp only [timegm, gmtime, year, date]
  omega

theorem gmtime_timegm {tm : Tm} (date : (Date.mk (tm.tm_year + 1900) tm.tm_mon tm.tm_mday).Exists)
    (hour : 0 ≤ tm.tm_hour ∧ tm.tm_hour < 24) (min : 0 ≤ tm.tm_min ∧ tm.tm_min < 60)
    (sec : 0 ≤ tm.tm_sec ∧ tm.tm_sec < 60) : gmtime (timegm tm) = tm := by
  have day : timegm tm / 86400 =
      (Date.mk (tm.tm_year + 1900) tm.tm_mon tm.tm_mday).number := by
    simp only [timegm]
    omega
  have second : timegm tm % 86400 = tm.tm_hour * 3600 + tm.tm_min * 60 + tm.tm_sec := by
    simp only [timegm]
    omega
  have year : tm.tm_year + 1900 - 1900 = tm.tm_year := by omega
  have hour' : (tm.tm_hour * 3600 + tm.tm_min * 60 + tm.tm_sec) / 3600 = tm.tm_hour := by omega
  have min' : (tm.tm_hour * 3600 + tm.tm_min * 60 + tm.tm_sec) / 60 % 60 = tm.tm_min := by
    omega
  have sec' : (tm.tm_hour * 3600 + tm.tm_min * 60 + tm.tm_sec) % 60 = tm.tm_sec := by omega
  simp only [gmtime, day, second, dateOf_number date, year, hour', min', sec']

/-- The six numbers of a timestamp as it is written; months count from 1. -/
structure Stamp where
  year : Nat
  month : Nat
  day : Nat
  hour : Nat
  min : Nat
  sec : Nat

namespace Stamp

def text (s : Stamp) : List UInt8 := layout s.year s.month s.day s.hour s.min s.sec

def tm (s : Stamp) : Tm := ⟨s.year - 1900, s.month - 1, s.day, s.hour, s.min, s.sec⟩

def date (s : Stamp) : Date := ⟨s.year, s.month - 1, s.day⟩

/-- The numbers that the parser lets through. -/
structure Accepted (s : Stamp) : Prop where
  year : s.year < 10000
  month : s.month ≤ 12
  day : s.day ≤ 31
  hour : s.hour ≤ 23
  min : s.min ≤ 59
  sec : s.sec ≤ 59

/-- The date is one of the calendar, and the time one of a day. -/
structure Real (s : Stamp) : Prop where
  year : s.year < 10000
  date : s.date.Exists
  hour : s.hour < 24
  min : s.min < 60
  sec : s.sec < 60

theorem Real.accepted {s : Stamp} (h : s.Real) : s.Accepted := by
  have month := h.date.month_high
  have day := h.date.day_high
  have long := monthLength_le (leapDay_bounds s.date.year).2 s.date.month
  have hour := h.hour
  have min := h.min
  have sec := h.sec
  simp only [Stamp.date] at month day long
  constructor
  · exact h.year
  · omega
  · omega
  · omega
  · omega
  · omega

theorem Accepted.fields {s : Stamp} (h : s.Accepted) :
    field s.text 0 4 = s.year ∧ field s.text 5 2 = s.month ∧ field s.text 8 2 = s.day ∧
      field s.text 11 2 = s.hour ∧ field s.text 14 2 = s.min ∧ field s.text 17 2 = s.sec := by
  have year := digitsValue_padded 4 (Nat.lt_of_lt_of_le h.year (by decide))
  have month := digitsValue_padded 2 (Nat.lt_of_le_of_lt h.month (by decide))
  have day := digitsValue_padded 2 (Nat.lt_of_le_of_lt h.day (by decide))
  have hour := digitsValue_padded 2 (Nat.lt_of_le_of_lt h.hour (by decide))
  have min := digitsValue_padded 2 (Nat.lt_of_le_of_lt h.min (by decide))
  have sec := digitsValue_padded 2 (Nat.lt_of_le_of_lt h.sec (by decide))
  simp only [padded, List.nil_append, List.cons_append] at year month day hour min sec
  simp [field, text, layout, padded, year, month, day, hour, min, sec]

def read (buf : List UInt8) : Stamp :=
  ⟨field buf 0 4, field buf 5 2, field buf 8 2, field buf 11 2, field buf 14 2, field buf 17 2⟩

theorem read_text {s : Stamp} (h : s.Accepted) : read s.text = s := by
  obtain ⟨year, month, day, hour, min, sec⟩ := h.fields
  simp only [read, year, month, day, hour, min, sec]

theorem text_read {buf : List UInt8} (format : timeFormat buf = some .utc)
    (numerals : numeralsOnly buf = true) : (read buf).text = buf :=
  (layout_of_utc format numerals).1.symm

theorem stringToTime_utc (mktime : Tm → Int) {str buf : List UInt8} {time : Int}
    (front : str.take TIMESTAMP_UTC_LEN = buf) (utc : timeFormat buf = some .utc) :
    stringToTime mktime str = .ok time ↔
      numeralsOnly buf = true ∧
        ((read buf).month ≤ 12 ∧ (read buf).day ≤ 31 ∧ (read buf).hour ≤ 23 ∧
          (read buf).min ≤ 59 ∧ (read buf).sec ≤ 59) ∧
        timegm (read buf).tm = time := by
  have written : str ≠ [] := by
    rintro rfl
    subst front
    cases utc
  have other : ¬ TimeFormat.utc = TimeFormat.date := by decide
  simp only [stringToTime, if_neg written, front, utc, guard_ok, if_neg other, if_true, read, tm,
    not_not, Except.ok.injEq]
  constructor
  · rintro ⟨numerals, month, day, hour, min, sec, value⟩
    exact ⟨numerals, by omega, value⟩
  · rintro ⟨numerals, bounds, value⟩
    exact ⟨numerals, by omega, by omega, by omega, by omega, by omega, value⟩

theorem stringToTime_text (mktime : Tm → Int) {s : Stamp} (h : s.Accepted) :
    stringToTime mktime s.text = .ok (timegm s.tm) := by
  have whole : s.text.take TIMESTAMP_UTC_LEN = s.text := by
    apply List.take_of_length_le
    simp [text, layout, padded_length, TIMESTAMP_UTC_LEN]
  apply (stringToTime_utc mktime whole (layout_utc _ _ _ _ _ _)).mpr
  rw [read_text h]
  exact ⟨layout_numeralsOnly _ _ _ _ _ _, ⟨h.month, h.day, h.hour, h.min, h.sec⟩, rfl⟩

theorem stringToTime_accepted {mktime : Tm → Int} {str : List UInt8} {time : Int}
    (accepted : stringToTime mktime str = .ok time)
    (utc : timeFormat (str.take TIMESTAMP_UTC_LEN) = some .utc) :
    ∃ s : Stamp, s.Accepted ∧ str.take TIMESTAMP_UTC_LEN = s.text ∧ timegm s.tm = time := by
  obtain ⟨numerals, bounds, value⟩ := (stringToTime_utc mktime rfl utc).mp accepted
  have text := text_read utc numerals
  refine ⟨read (str.take TIMESTAMP_UTC_LEN), ?_, text.symm, value⟩
  exact ⟨(layout_of_utc utc numerals).2, bounds.1, bounds.2.1, bounds.2.2.1, bounds.2.2.2.1,
    bounds.2.2.2.2⟩

/-- The instant of a stamp that stands in the calendar is written as the stamp. -/
theorem timeToIso8601utc_timegm {s : Stamp} (h : s.Real) (valid : timegm s.tm ≠ INVALID_TIME) :
    timeToIso8601utc (timegm s.tm) = s.text := by
  have year : s.tm.tm_year + 1900 = s.year := by
    simp only [tm]
    omega
  have month : s.tm.tm_mon + 1 = s.month := by
    simp only [tm]
    omega
  have date : (Date.mk (s.tm.tm_year + 1900) s.tm.tm_mon s.tm.tm_mday).Exists := by
    rw [year]
    exact h.date
  have hour := h.hour
  have min := h.min
  have sec := h.sec
  have back : gmtime (timegm s.tm) = s.tm := by
    apply gmtime_timegm date
    · simp only [tm]
      omega
    · simp only [tm]
      omega
    · simp only [tm]
      omega
  have year_high := h.year
  have month_high := h.accepted.month
  have day_high := h.accepted.day
  have plain : ∀ n : Nat, n < 10000 → unsigned n = n := by
    intro n small
    simp only [unsigned]
    omega
  rw [timeToIso8601utc, if_neg valid]
  simp only [back, year, month, uintToStrdec_padded]
  simp only [tm]
  rw [plain s.year year_high, plain s.month (by omega), plain s.day (by omega),
    plain s.hour (by omega), plain s.min (by omega), plain s.sec (by omega)]
  rfl

theorem exists_of_gmtime (time : Int) (low : 0 ≤ (gmtime time).tm_year + 1900)
    (high : (gmtime time).tm_year + 1900 < 10000) :
    ∃ s : Stamp, s.Real ∧ s.tm = gmtime time := by
  have date := dateOf_exists (time / 86400)
  have month := date.month_low
  have day := date.day_low
  simp only [gmtime] at low high
  refine ⟨⟨(dateOf (time / 86400)).year.toNat, ((dateOf (time / 86400)).month + 1).toNat,
    (dateOf (time / 86400)).day.toNat, (time % 86400 / 3600).toNat,
    (time % 86400 / 60 % 60).toNat, (time % 86400 % 60).toNat⟩, ?_, ?_⟩
  · constructor
    · simp only
      omega
    · have same : (Stamp.date ⟨(dateOf (time / 86400)).year.toNat,
          ((dateOf (time / 86400)).month + 1).toNat, (dateOf (time / 86400)).day.toNat,
          (time % 86400 / 3600).toNat, (time % 86400 / 60 % 60).toNat,
          (time % 86400 % 60).toNat⟩) = dateOf (time / 86400) := by
        simp only [Stamp.date]
        rw [Int.toNat_of_nonneg (by omega), Int.toNat_of_nonneg (by omega),
          Int.toNat_of_nonneg (by omega), Int.add_sub_cancel]
      rw [same]
      exact date
    · simp only
      omega
    · simp only
      omega
    · simp only
      omega
  · simp only [tm, gmtime, Tm.mk.injEq]
    omega

end Stamp

/-- For every instant of the years 1970 to 9999 the text is read back as the instant, and so
is the text of no other. The invalid time is the one that has no text. -/
theorem timestamps_read_back (mktime : Tm → Int) (time : Int)
    (low : 1970 ≤ (gmtime time).tm_year + 1900) (high : (gmtime time).tm_year + 1900 ≤ 9999) :
    stringToTime mktime (timeToIso8601utc time) = .ok time ∧
      (timeToIso8601utc INVALID_TIME = [] ∧ stringToTime mktime [] = .ok INVALID_TIME) ∧
      ∀ other, 1970 ≤ (gmtime other).tm_year + 1900 → (gmtime other).tm_year + 1900 ≤ 9999 →
        timeToIso8601utc other = timeToIso8601utc time → other = time := by
  have back : ∀ t, 1970 ≤ (gmtime t).tm_year + 1900 → (gmtime t).tm_year + 1900 ≤ 9999 →
      stringToTime mktime (timeToIso8601utc t) = .ok t := by
    intro t low high
    by_cases invalid : t = INVALID_TIME
    · subst invalid
      rfl
    · obtain ⟨s, real, same⟩ := Stamp.exists_of_gmtime t (by omega) (by omega)
      have instant : timegm s.tm = t := by
        rw [same]
        exact timegm_gmtime t
      have text := Stamp.timeToIso8601utc_timegm real (by rw [instant]; exact invalid)
      rw [instant] at text
      rw [text, Stamp.stringToTime_text mktime real.accepted, instant]
  refine ⟨back time low high, ⟨rfl, rfl⟩, ?_⟩
  intro other other_low other_high same
  have read := back other other_low other_high
  rw [same, back time low high] at read
  exact (Except.ok.inj read).symm

theorem timestamps_read_back_sample :
    stringToTime timegm (timeToIso8601utc 1343740167) = .ok 1343740167 ∧
      (timeToIso8601utc INVALID_TIME = [] ∧ stringToTime timegm [] = .ok INVALID_TIME) ∧
      ∀ other, 1970 ≤ (gmtime other).tm_year + 1900 → (gmtime other).tm_year + 1900 ≤ 9999 →
        timeToIso8601utc other = timeToIso8601utc 1343740167 → other = 1343740167 :=
  timestamps_read_back timegm 1343740167 (by decide) (by decide)

/-- The whole string is a date of the calendar with a time of day, and it is what the time
read from it is written as. -/
structure ReadTruly (str : List UInt8) (time : Int) : Prop where
  denotes : ∃ s : Stamp, s.Real ∧ str = s.text
  written : time ≠ INVALID_TIME → timeToIso8601utc time = str

/-- What the parser leaves unchecked: nothing follows the 20 characters, neither the month
nor the day is zero, and the month has that many days. -/
structure Unslipped (str : List UInt8) : Prop where
  length : str.length = TIMESTAMP_UTC_LEN
  month : field str 5 2 ≠ 0
  day : field str 8 2 ≠ 0
  long : (field str 8 2 : Int) ≤
    monthLength (leapDay (field str 0 4)) ((field str 5 2 : Int) - 1)

/-- A string accepted in the UTC format is truly read exactly when it is one of the strings
that the unchecked parts do not let slip. -/
theorem accepted_utc_truly_iff (mktime : Tm → Int) (str : List UInt8) (time : Int)
    (accepted : stringToTime mktime str = .ok time)
    (utc : timeFormat (str.take TIMESTAMP_UTC_LEN) = some .utc) :
    ReadTruly str time ↔ Unslipped str := by
  obtain ⟨s, bounds, front, value⟩ := Stamp.stringToTime_accepted accepted utc
  constructor
  · rintro ⟨⟨r, real, rfl⟩, -⟩
    obtain ⟨year, month, day, -⟩ := real.accepted.fields
    have date := real.date
    have month_low := date.month_low
    have day_low := date.day_low
    have day_high := date.day_high
    simp only [Stamp.date] at month_low day_low day_high
    constructor
    · simp [Stamp.text, layout, padded_length, TIMESTAMP_UTC_LEN]
    · rw [month]
      omega
    · rw [day]
      omega
    · rw [year, month, day]
      exact day_high
  · rintro ⟨length, month_some, day_some, long⟩
    have whole : str = s.text := by
      rw [← front, List.take_of_length_le (by omega)]
    obtain ⟨year, month, day, -⟩ := bounds.fields
    rw [whole, month] at month_some
    rw [whole, day] at day_some
    rw [whole, year, month, day] at long
    have month_high := bounds.month
    have real : s.Real := by
      constructor
      · exact bounds.year
      · constructor
        · simp only [Stamp.date]
          omega
        · simp only [Stamp.date]
          omega
        · simp only [Stamp.date]
          omega
        · exact long
      · exact Nat.lt_succ_of_le bounds.hour
      · exact Nat.lt_succ_of_le bounds.min
      · exact Nat.lt_succ_of_le bounds.sec
    constructor
    · exact ⟨s, real, whole⟩
    · intro valid
      rw [← value] at valid ⊢
      rw [Stamp.timeToIso8601utc_timegm real valid, whole]

/-- `"2023-02-28T00:00:00Z"`, with the day of the month as given. -/
def february (day : Nat) : List UInt8 := layout 2023 2 day 0 0 0

theorem accepted_utc_truly_february :
    ReadTruly (february 28) 1677542400 ↔ Unslipped (february 28) :=
  accepted_utc_truly_iff timegm (february 28) 1677542400 (by rfl) (by decide)

/-- The 30th of February is taken for the 2nd of March, and written back as that. -/
theorem february_thirtieth_slips :
    (∀ mktime, stringToTime mktime (february 30) = .ok 1677715200) ∧
      timeToIso8601utc 1677715200 = layout 2023 3 2 0 0 0 ∧
      ¬ ∀ (mktime : Tm → Int) (str : List UInt8) (time : Int),
        stringToTime mktime str = .ok time →
        timeFormat (str.take TIMESTAMP_UTC_LEN) = some .utc → ReadTruly str time := by
  have read : ∀ mktime, stringToTime mktime (february 30) = .ok 1677715200 := fun _ => rfl
  have text : timeToIso8601utc 1677715200 = layout 2023 3 2 0 0 0 := by decide
  refine ⟨read, text, ?_⟩
  intro claimed
  have truly := claimed (fun _ => 0) (february 30) 1677715200 (read _) (by decide)
  have written := truly.written (by decide)
  rw [text] at written
  revert written
  decide

/-- `tz_t`. -/
structure Tz where
  tz_dir : Int
  tz_hour : Int
  tz_min : Int
  tz_str : List UInt8
  deriving DecidableEq, Repr

/-- `%+2.2d` of a number below 100. -/
def signedPair (i : Int) : List UInt8 := (if i < 0 then 45 else 43) :: padded 2 i.natAbs

/-- The remainder and the quotient of C are cut towards zero. -/
def timeTz (localtime : Int → Tm) (time : Int) : Tz :=
  let loc := localtime time
  let gmt := gmtime time
  let minutes := ((loc.tm_hour * 60 + loc.tm_min) - (gmt.tm_hour * 60 + gmt.tm_min)).tmod 720
  let dir : Int := if minutes < 0 then -1 else 1
  let hour := (dir * minutes).tdiv 60
  let min := dir * minutes - hour * 60
  ⟨dir, hour, min, signedPair (dir * hour) ++ 58 :: padded 2 (unsigned min % 60)⟩

/-- The broken-down times of a place whose clock is ahead of UTC by some minutes. -/
def localtimeAt (offset : Int) (time : Int) : Tm := gmtime (time + 60 * offset)

/-- The direction, the hours and the minutes make up the offset. -/
def Tz.Tells (tz : Tz) (offset : Int) : Prop :=
  tz.tz_dir * (60 * tz.tz_hour + tz.tz_min) = offset

/-- The fields always make up what the remainder left of the minutes. -/
theorem timeTz_tells_iff (localtime : Int → Tm) (time offset : Int) :
    (timeTz localtime time).Tells offset ↔
      (((localtime time).tm_hour * 60 + (localtime time).tm_min) -
        ((gmtime time).tm_hour * 60 + (gmtime time).tm_min)).tmod 720 = offset := by
  simp only [Tz.Tells, timeTz]
  generalize (((localtime time).tm_hour * 60 + (localtime time).tm_min) -
        ((gmtime time).tm_hour * 60 + (gmtime time).tm_min)).tmod 720 = minutes
  split
  · have back : -1 * (60 * (-1 * minutes).tdiv 60 + (-1 * minutes - (-1 * minutes).tdiv 60 * 60)) =
      minutes := by omega
    rw [back]
  · have back : 1 * (60 * (1 * minutes).tdiv 60 + (1 * minutes - (1 * minutes).tdiv 60 * 60)) =
      minutes := by omega
    rw [back]

theorem gmtime_minutes (time : Int) :
    (gmtime time).tm_hour * 60 + (gmtime time).tm_min = time % 86400 / 60 := by
  simp only [gmtime]
  omega

/-- The clocks differ by the offset, less a day's minutes for every day they are apart. -/
theorem clock_difference (time offset : Int) :
    (time + 60 * offset) % 86400 / 60 - time % 86400 / 60 =
      offset - 1440 * ((time + 60 * offset) / 86400 - time / 86400) := by
  omega

theorem tmod_bounds (i : Int) : (0 ≤ i → 0 ≤ i.tmod 720 ∧ i.tmod 720 < 720) ∧
    (i ≤ 0 → i.tmod 720 ≤ 0 ∧ -720 < i.tmod 720) := by
  constructor
  · intro h
    rw [Int.tmod_eq_emod_of_nonneg h]
    omega
  · intro h
    have opposite : i.tmod 720 = -((-i) % 720) := by
      rw [← Int.tmod_eq_emod_of_nonneg (by omega), Int.neg_tmod, Int.neg_neg]
    omega

theorem tmod_small {i : Int} (low : -720 < i) (high : i < 720) : i.tmod 720 = i := by
  rcases Int.le_total 0 i with positive | negative
  · rw [Int.tmod_eq_emod_of_nonneg positive]
    omega
  · have opposite : i.tmod 720 = -((-i) % 720) := by
      rw [← Int.tmod_eq_emod_of_nonneg (by omega), Int.neg_tmod, Int.neg_neg]
    omega

/-- The offset is told exactly when it is below twelve hours and the instant falls on one
day at both ends of it. -/
theorem timeTz_tells_offset_iff (time offset : Int) (near : -840 ≤ offset ∧ offset ≤ 840) :
    (timeTz (localtimeAt offset) time).Tells offset ↔
      (-720 < offset ∧ offset < 720) ∧ (time + 60 * offset) / 86400 = time / 86400 := by
  rw [timeTz_tells_iff]
  simp only [localtimeAt, gmtime_minutes, clock_difference]
  generalize sameDays : (time + 60 * offset) / 86400 - time / 86400 = days
  have bounds := tmod_bounds (offset - 1440 * days)
  constructor
  · intro told
    have same : days = 0 := by
      have few : -1 ≤ days ∧ days ≤ 1 := by omega
      omega
    subst same
    omega
  · rintro ⟨⟨low, high⟩, same⟩
    have none : days = 0 := by omega
    subst none
    rw [Int.mul_zero, Int.sub_zero]
    exact tmod_small low high

theorem timeTz_tells_offset_noon :
    (timeTz (localtimeAt 330) 1343736000).Tells 330 ↔
      ((-720 : Int) < 330 ∧ (330 : Int) < 720) ∧
        ((1343736000 : Int) + 60 * 330) / 86400 = 1343736000 / 86400 :=
  timeTz_tells_offset_iff 1343736000 330 (by decide)

/-- At 23:00 a clock two hours ahead is on the next day, and is said to be ten hours behind. -/
theorem timeTz_next_day :
    timeTz (localtimeAt 120) 1343775600 = ⟨-1, 10, 0, [45, 49, 48, 58, 48, 48]⟩ ∧
      ¬ ∀ time offset : Int, -840 ≤ offset ∧ offset ≤ 840 →
        (timeTz (localtimeAt offset) time).Tells offset := by
  have told : timeTz (localtimeAt 120) 1343775600 = ⟨-1, 10, 0, [45, 49, 48, 58, 48, 48]⟩ := by
    decide
  refine ⟨told, ?_⟩
  intro claimed
  have tells := claimed 1343775600 120 (by decide)
  rw [told, Tz.Tells] at tells
  revert tells
  decide

end Builtin

end CppMyth
