import Mathlib

/-!
# Dates and times as texts

A time is the number of microseconds since the beginning of the year 1, in UTC. The calendar numbers
its days from 1, as `toordinal` and `fromordinal` do. `isoformat` prints a time with its offset and
without microseconds that are zero, and `fromisoformat` reads what `isoformat` prints, of all the
formats it knows.
-/

namespace Datetime

/-! ## The calendar -/

def isLeap (year : ℕ) : Bool := year % 4 = 0 && (year % 100 ≠ 0 || year % 400 = 0)

/-- The days before a year. -/
def daysBeforeYear (year : ℕ) : ℕ :=
  (year - 1) * 365 + (year - 1) / 4 - (year - 1) / 100 + (year - 1) / 400

/-- The days of the months of a year. -/
def monthDays (leap : Bool) : List ℕ :=
  [31, if leap then 29 else 28, 31, 30, 31, 30, 31, 31, 30, 31, 30, 31]

/-- The days of a year before a month. -/
def daysBeforeMonth (leap : Bool) (month : ℕ) : ℕ := ((monthDays leap).take (month - 1)).sum

/-- The number of a day. -/
def toordinal (year month day : ℕ) : ℕ :=
  daysBeforeYear year + daysBeforeMonth (isLeap year) month + day

/-- The month and the day of the month on which a day falls, counted from the beginning of the
months given. -/
def monthFrom : List ℕ → ℕ → ℕ → ℕ × ℕ
  | [], month, n => (month, n + 1)
  | days :: rest, month, n => if n < days then (month, n + 1) else monthFrom rest (month + 1) (n - days)

/-- The year, the month and the day of the month with a number. -/
def fromordinal (ordinal : ℕ) : ℕ × ℕ × ℕ :=
  let n400 := (ordinal - 1) / 146097
  let n := (ordinal - 1) % 146097
  let n100 := n / 36524
  let n := n % 36524
  let n4 := n / 1461
  let n := n % 1461
  let n1 := n / 365
  let year := n400 * 400 + 1 + n100 * 100 + n4 * 4 + n1
  if n1 = 4 ∨ n100 = 4 then (year - 1, 12, 31)
  else
    let leap := n1 = 3 && (n4 ≠ 24 || n100 = 3)
    (year, monthFrom (monthDays leap) 1 (n % 365))

theorem monthFrom_spec {days : List ℕ} {n : ℕ} (h : n < days.sum) (month : ℕ) :
    ∃ k < days.length, monthFrom days month n = (month + k, n - (days.take k).sum + 1)
      ∧ (days.take k).sum ≤ n ∧ n < (days.take k).sum + days.getD k 0 := by
  induction days generalizing n month with
  | nil => simp at h
  | cons d days ih =>
    rw [monthFrom]
    by_cases hn : n < d
    · refine ⟨0, by simp, ?_⟩
      simp [hn]
    · rw [List.sum_cons] at h
      obtain ⟨k, hk, hmonth, hle, hlt⟩ := ih (n := n - d) (by omega) (month + 1)
      refine ⟨k + 1, by simpa using hk, ?_⟩
      rw [if_neg hn, hmonth, List.take_succ_cons, List.sum_cons, List.getD_cons_succ]
      refine ⟨?_, by omega, by omega⟩
      simp only [Prod.mk.injEq]
      omega

/-- A day with its year, its month and its place in the month. -/
def IsDay (year month day : ℕ) : Prop :=
  1 ≤ year ∧ (1 ≤ month ∧ month ≤ 12)
    ∧ 1 ≤ day ∧ day ≤ (monthDays (isLeap year)).getD (month - 1) 0

instance (year month day : ℕ) : Decidable (IsDay year month day) := inferInstanceAs (Decidable (_ ∧ _))

theorem sum_monthDays (leap : Bool) : (monthDays leap).sum = if leap then 366 else 365 := by
  cases leap <;> rfl

/-- A day of a year is found again by its month. -/
theorem monthFrom_monthDays {leap : Bool} {n : ℕ} (h : n < if leap then 366 else 365) :
    ∃ month day, monthFrom (monthDays leap) 1 n = (month, day) ∧ (1 ≤ month ∧ month ≤ 12)
      ∧ (1 ≤ day ∧ day ≤ (monthDays leap).getD (month - 1) 0)
      ∧ daysBeforeMonth leap month + day = n + 1 := by
  rw [← sum_monthDays] at h
  obtain ⟨k, hk, hmonth, hle, hlt⟩ := monthFrom_spec h 1
  have hlength : (monthDays leap).length = 12 := rfl
  have hindex : 1 + k - 1 = k := by omega
  refine ⟨_, _, hmonth, by omega, ?_, ?_⟩
  · rw [hindex]
    omega
  · rw [daysBeforeMonth, hindex]
    omega

/-! The years are counted in cycles of four hundred, a hundred, four and one; `a`, `b`, `c` and `d`
are how many of each have passed. -/

section Cycles

variable {a b c d : ℕ} (hb : b < 4) (hc : c < 25) (hd : d < 4)
include hb hc hd

theorem daysBeforeYear_cycles : daysBeforeYear (a * 400 + 1 + b * 100 + c * 4 + d)
    = a * 146097 + b * 36524 + c * 1461 + d * 365 := by
  have hyear : a * 400 + 1 + b * 100 + c * 4 + d - 1 = a * 400 + b * 100 + c * 4 + d := by omega
  have hfour : (a * 400 + b * 100 + c * 4 + d) / 4 = a * 100 + b * 25 + c := by omega
  have hhundred : (a * 400 + b * 100 + c * 4 + d) / 100 = a * 4 + b := by omega
  have hcycle : (a * 400 + b * 100 + c * 4 + d) / 400 = a := by omega
  rw [daysBeforeYear, hyear, hfour, hhundred, hcycle]
  omega

theorem isLeap_cycles : isLeap (a * 400 + 1 + b * 100 + c * 4 + d)
    = (decide (d = 3) && (decide (c ≠ 24) || decide (b = 3))) := by
  rw [Bool.eq_iff_iff]
  simp only [isLeap, Bool.and_eq_true, Bool.or_eq_true, decide_eq_true_eq]
  omega

end Cycles

/-- The last day of a year that ends a cycle of four. -/
theorem toordinal_last (year : ℕ) (hyear : 1 ≤ year) (hleap : isLeap year = true) :
    IsDay year 12 31 ∧ toordinal year 12 31 = daysBeforeYear year + 366 := by
  refine ⟨⟨hyear, by omega, by omega, by rw [hleap]; decide⟩, ?_⟩
  rw [toordinal, hleap, show daysBeforeMonth true 12 = 335 from rfl]

/-- The calendar is sound: a day has the number it was found by. -/
theorem toordinal_fromordinal {ordinal : ℕ} (h : 1 ≤ ordinal) :
    ∃ year month day, fromordinal ordinal = (year, month, day) ∧ IsDay year month day
      ∧ toordinal year month day = ordinal := by
  obtain ⟨n, rfl⟩ : ∃ n, ordinal = n + 1 := ⟨ordinal - 1, by omega⟩
  unfold fromordinal
  simp only [Nat.add_sub_cancel]
  obtain ⟨a, r, hr, hn, ha⟩ : ∃ a r, r < 146097 ∧ n % 146097 = r ∧ n / 146097 = a :=
    ⟨_, _, Nat.mod_lt _ (by decide), rfl, rfl⟩
  obtain ⟨b, s, hs, hrs, hb⟩ : ∃ b s, s < 36524 ∧ r % 36524 = s ∧ r / 36524 = b :=
    ⟨_, _, Nat.mod_lt _ (by decide), rfl, rfl⟩
  obtain ⟨c, u, hu, hsu, hc⟩ : ∃ c u, u < 1461 ∧ s % 1461 = u ∧ s / 1461 = c :=
    ⟨_, _, Nat.mod_lt _ (by decide), rfl, rfl⟩
  obtain ⟨d, v, hv, huv, hd⟩ : ∃ d v, v < 365 ∧ u % 365 = v ∧ u / 365 = d :=
    ⟨_, _, Nat.mod_lt _ (by decide), rfl, rfl⟩
  rw [hn, ha, hrs, hb, hsu, hc, huv, hd]
  have hbd : b ≤ 4 := by omega
  by_cases hlast : d = 4 ∨ b = 4
  · rw [if_pos hlast]
    refine ⟨_, _, _, rfl, ?_⟩
    by_cases hb4 : b = 4
    · -- the last day of a cycle of four hundred years
      have hzero : c = 0 ∧ d = 0 ∧ v = 0 := by omega
      have hyear : a * 400 + 1 + b * 100 + c * 4 + d - 1 = a * 400 + 1 + 3 * 100 + 24 * 4 + 3 := by
        omega
      obtain ⟨hday, hsum⟩ := toordinal_last (a * 400 + 1 + 3 * 100 + 24 * 4 + 3) (by omega)
        (by rw [isLeap_cycles (by omega) (by omega) (by omega)]; rfl)
      rw [hyear, hsum, daysBeforeYear_cycles (by omega) (by omega) (by omega)]
      exact ⟨hday, by omega⟩
    · have hd4 : d = 4 := hlast.resolve_right hb4
      have hc24 : c < 24 := by omega
      have hyear : a * 400 + 1 + b * 100 + c * 4 + d - 1 = a * 400 + 1 + b * 100 + c * 4 + 3 := by
        omega
      obtain ⟨hday, hsum⟩ := toordinal_last (a * 400 + 1 + b * 100 + c * 4 + 3) (by omega)
        (by rw [isLeap_cycles (by omega) (by omega) (by omega)]; simp; omega)
      rw [hyear, hsum, daysBeforeYear_cycles (by omega) (by omega) (by omega)]
      exact ⟨hday, by omega⟩
  · rw [if_neg hlast]
    have hb4 : b < 4 := by omega
    have hc25 : c < 25 := by omega
    have hd4 : d < 4 := by omega
    rw [← isLeap_cycles (a := a) hb4 hc25 hd4]
    have hday : v < if isLeap (a * 400 + 1 + b * 100 + c * 4 + d) then 366 else 365 := by
      split <;> omega
    obtain ⟨month, day, hmonth, hm, hday, hsum⟩ := monthFrom_monthDays hday
    refine ⟨_, month, day, by rw [hmonth], ⟨by omega, hm, hday⟩, ?_⟩
    rw [toordinal, daysBeforeYear_cycles hb4 hc25 hd4, Nat.add_assoc, hsum]
    omega

/-! ## Texts -/

/-- The last `w` decimal digits of a number. -/
def decimals : ℕ → ℕ → List Char
  | 0, _ => []
  | w + 1, n => decimals w (n / 10) ++ [Nat.digitChar (n % 10)]

/-- Read `w` decimal digits. -/
def readDecimals (w : ℕ) (cs : List Char) : Option (ℕ × List Char) :=
  if (cs.take w).length = w ∧ (cs.take w).all Char.isDigit then
    some ((cs.take w).foldl (fun n c ↦ 10 * n + (c.toNat - '0'.toNat)) 0, cs.drop w)
  else none

/-- Read a separator. -/
def readSeparator (c : Char) : List Char → Option (List Char)
  | [] => none
  | c' :: cs => if c' = c then some cs else none

def microsecondsPerDay : ℕ := 86400000000

/-- The times before the end of the year 9999. -/
def maxTime : ℕ := 3652059 * microsecondsPerDay

/-- `isoformat()` of a time in UTC. -/
def isoformat (t : ℕ) : List Char :=
  let (year, month, day) := fromordinal (t / microsecondsPerDay + 1)
  let seconds := t % microsecondsPerDay / 1000000
  let fraction := t % 1000000
  decimals 4 year ++ '-' :: (decimals 2 month ++ '-' :: (decimals 2 day ++ 'T' ::
    (decimals 2 (seconds / 3600) ++ ':' :: (decimals 2 (seconds / 60 % 60) ++ ':' ::
      (decimals 2 (seconds % 60) ++ ((if fraction = 0 then [] else '.' :: decimals 6 fraction)
        ++ "+00:00".toList))))))

/-- `datetime.fromisoformat`, of a text in the format of `isoformat`. -/
def fromisoformat (cs : List Char) : Option ℕ := do
  let (year, cs) ← readDecimals 4 cs
  let (month, cs) ← readDecimals 2 (← readSeparator '-' cs)
  let (day, cs) ← readDecimals 2 (← readSeparator '-' cs)
  let (hour, cs) ← readDecimals 2 (← readSeparator 'T' cs)
  let (minute, cs) ← readDecimals 2 (← readSeparator ':' cs)
  let (second, cs) ← readDecimals 2 (← readSeparator ':' cs)
  let (fraction, cs) ← match readSeparator '.' cs with
    | some cs => readDecimals 6 cs
    | none => some (0, cs)
  if cs = "+00:00".toList ∧ IsDay year month day ∧ hour < 24 ∧ minute < 60 ∧ second < 60 then
    some ((toordinal year month day - 1) * microsecondsPerDay
      + ((hour * 60 + minute) * 60 + second) * 1000000 + fraction)
  else none

theorem length_decimals (w n : ℕ) : (decimals w n).length = w := by
  induction w generalizing n with
  | zero => rfl
  | succ w ih => rw [decimals, List.length_append, ih, List.length_singleton]

theorem decimal_digitChar (n : ℕ) : (Nat.digitChar (n % 10)).isDigit = true
    ∧ (Nat.digitChar (n % 10)).toNat - '0'.toNat = n % 10 := by
  have key : ∀ d : Fin 10, (Nat.digitChar d.val).isDigit = true
      ∧ (Nat.digitChar d.val).toNat - '0'.toNat = d.val := by decide
  exact key ⟨n % 10, Nat.mod_lt n (by decide)⟩

theorem isDigit_of_mem_decimals {w n : ℕ} : ∀ c ∈ decimals w n, c.isDigit = true := by
  induction w generalizing n with
  | zero => simp [decimals]
  | succ w ih =>
    intro c hc
    rcases List.mem_append.mp hc with hc | hc
    · exact ih c hc
    · rw [List.mem_singleton.mp hc]
      exact (decimal_digitChar n).1

theorem readDecimals_decimals {w n : ℕ} (h : n < 10 ^ w) (cs : List Char) :
    readDecimals w (decimals w n ++ cs) = some (n, cs) := by
  have hvalue : ∀ w n, n < 10 ^ w →
      (decimals w n).foldl (fun n c ↦ 10 * n + (c.toNat - '0'.toNat)) 0 = n := by
    intro w
    induction w with
    | zero => intro n hn; simp [decimals]; omega
    | succ w ih =>
      intro n hn
      have hdigit : (Nat.digitChar (n % 10)).toNat - '0'.toNat = n % 10 := (decimal_digitChar n).2
      rw [decimals, List.foldl_append, ih (n / 10) (by rw [Nat.pow_succ] at hn; omega),
        List.foldl_cons, List.foldl_nil, hdigit]
      omega
  have htake : (decimals w n ++ cs).take w = decimals w n := List.take_left' (length_decimals w n)
  have hall : (decimals w n).all Char.isDigit = true := List.all_eq_true.mpr isDigit_of_mem_decimals
  rw [readDecimals, htake, if_pos ⟨length_decimals w n, hall⟩, hvalue w n h,
    List.drop_left' (length_decimals w n)]

@[simp] theorem readSeparator_cons (c : Char) (cs : List Char) :
    readSeparator c (c :: cs) = some cs := if_pos rfl

theorem year_lt {year month day : ℕ} (h : IsDay year month day)
    (hmax : toordinal year month day ≤ 3652059) : year < 10000 := by
  by_contra hyear
  have hbefore : 3652059 ≤ daysBeforeYear year := by
    rw [daysBeforeYear]
    omega
  have hday := h.2.2.1
  rw [toordinal] at hmax
  omega

/-- A month has at most 31 days. -/
theorem day_lt {year month day : ℕ} (h : IsDay year month day) : day < 100 := by
  have hlengths : ∀ leap : Bool, ∀ k : Fin 12, (monthDays leap).getD k.val 0 ≤ 31 := by decide
  have hmonth := h.2.1
  have hle := hlengths (isLeap year) ⟨month - 1, by omega⟩
  have hday := h.2.2.2
  simp only at hle
  omega

/-- A time before the end of the year 9999 is read back. -/
theorem fromisoformat_isoformat {t : ℕ} (h : t < maxTime) :
    fromisoformat (isoformat t) = some t := by
  have hdays : t / microsecondsPerDay < 3652059 := Nat.div_lt_of_lt_mul (by rwa [Nat.mul_comm])
  obtain ⟨year, month, day, hdate, hday, hordinal⟩ :=
    toordinal_fromordinal (Nat.le_add_left 1 (t / microsecondsPerDay))
  have hyear : year < 10 ^ 4 := year_lt hday (by omega)
  have hmonth : month < 10 ^ 2 := Nat.lt_of_le_of_lt hday.2.1.2 (by decide)
  have hday' : day < 10 ^ 2 := day_lt hday
  have hseconds : t % microsecondsPerDay / 1000000 < 86400 :=
    Nat.div_lt_of_lt_mul (Nat.mod_lt t (by decide))
  rw [isoformat, hdate]
  simp only
  generalize hs : t % microsecondsPerDay / 1000000 = seconds at hseconds
  have hhour : seconds / 3600 < 10 ^ 2 := by omega
  have hminute : seconds / 60 % 60 < 10 ^ 2 := by omega
  have hsecond : seconds % 60 < 10 ^ 2 := by omega
  have hvalid : True ∧ IsDay year month day ∧ seconds / 3600 < 24 ∧ seconds / 60 % 60 < 60
      ∧ seconds % 60 < 60 :=
    ⟨trivial, hday, by omega, by omega, by omega⟩
  have htime : (toordinal year month day - 1) * microsecondsPerDay
      + ((seconds / 3600 * 60 + seconds / 60 % 60) * 60 + seconds % 60) * 1000000 + t % 1000000
      = t := by
    rw [hordinal, Nat.add_sub_cancel]
    rw [microsecondsPerDay] at hs ⊢
    omega
  by_cases hfraction : t % 1000000 = 0
  · rw [if_pos hfraction, fromisoformat]
    rw [hfraction] at htime
    simp only [readDecimals_decimals hyear, readDecimals_decimals hmonth,
      readDecimals_decimals hday', readDecimals_decimals hhour, readDecimals_decimals hminute,
      readDecimals_decimals hsecond, readSeparator_cons, Option.bind_eq_bind, Option.bind_some,
      List.nil_append, show readSeparator '.' "+00:00".toList = none from rfl, htime]
    exact if_pos hvalid
  · have hmicro : t % 1000000 < 10 ^ 6 := Nat.mod_lt t (by decide)
    rw [if_neg hfraction, fromisoformat]
    simp only [readDecimals_decimals hyear, readDecimals_decimals hmonth,
      readDecimals_decimals hday', readDecimals_decimals hhour, readDecimals_decimals hminute,
      readDecimals_decimals hsecond, readDecimals_decimals hmicro, readSeparator_cons,
      Option.bind_eq_bind, Option.bind_some, List.cons_append, htime]
    exact if_pos hvalid

theorem notMem_isoformat (t : ℕ) : 'Z' ∉ isoformat t := by
  have hdecimals : ∀ w n, 'Z' ∉ decimals w n := fun w n h ↦
    absurd (isDigit_of_mem_decimals _ h) (by decide)
  have hfraction : 'Z' ∉ (if t % 1000000 = 0 then [] else '.' :: decimals 6 (t % 1000000)) := by
    split <;> simp [hdecimals]
  have hoffset : 'Z' ∉ "+00:00".toList := by decide
  simp only [isoformat, List.mem_append, List.mem_cons, hdecimals, hfraction, hoffset]
  decide

theorem length_isoformat (t : ℕ) : (isoformat t).length ≤ 32 := by
  rw [isoformat]
  simp only [List.length_append, List.length_cons, length_decimals]
  split <;> simp [length_decimals]

example : isoformat 63713469600500000 = "2020-01-01T10:00:00.500000+00:00".toList := by decide

end Datetime
