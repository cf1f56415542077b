import SC04Monitor.Lib.Calendar

/-! # Setting the clock

A date passes through three conventions: the arguments of `Bsp_set_time` (years from 2000,
months from 1), `struct tm` (years from 1900, months from 0) and the registers of the RTC
(years from 1970, months from 1). The guard against small corrections compares a month from
0 with a month from 1. -/

namespace SC04Monitor.Drivers
open SC04Monitor.Lib.Calendar

/-- The members of `struct tm` that are used. -/
structure Tm where
  tmSec : Int
  tmMin : Int
  tmHour : Int
  tmMday : Int
  tmMon : Int
  tmYear : Int
  deriving DecidableEq

/-- The registers of the RTC, as `RTC_GetTime` and `RTC_GetDate` give them in binary. -/
structure RtcRegs where
  seconds : UInt8
  minutes : UInt8
  hours : UInt8
  date : UInt8
  month : UInt8
  year : UInt8
  deriving DecidableEq

/-- The table `month`: the days before each month of a leap year, in seconds. -/
def monthTab : List Int := [
  0, 86400 * 31, 86400 * (31 + 29), 86400 * (31 + 29 + 31), 86400 * (31 + 29 + 31 + 30),
  86400 * (31 + 29 + 31 + 30 + 31), 86400 * (31 + 29 + 31 + 30 + 31 + 30),
  86400 * (31 + 29 + 31 + 30 + 31 + 30 + 31), 86400 * (31 + 29 + 31 + 30 + 31 + 30 + 31 + 31),
  86400 * (31 + 29 + 31 + 30 + 31 + 30 + 31 + 31 + 30),
  86400 * (31 + 29 + 31 + 30 + 31 + 30 + 31 + 31 + 30 + 31),
  86400 * (31 + 29 + 31 + 30 + 31 + 30 + 31 + 31 + 30 + 31 + 30)]

/-- `rt_mktime`. -/
def rtMktime (tm : Tm) : Int :=
  let year := tm.tmYear - 70
  let res := 31536000 * year + 86400 * (year + 1).tdiv 4
  let res := res + monthTab.getD tm.tmMon.toNat 0
  let res := if 1 < tm.tmMon ∧ (year + 2).tmod 4 ≠ 0 then res - 86400 else res
  let res := res + 86400 * (tm.tmMday - 1)
  let res := res + 3600 * tm.tmHour
  let res := res + 60 * tm.tmMin
  res + tm.tmSec

/-- The broken-down time that `rt_rtc_control` reads from the registers. -/
def readRegs (regs : RtcRegs) : Tm where
  tmSec := regs.seconds.toNat
  tmMin := regs.minutes.toNat
  tmHour := regs.hours.toNat
  tmMon := regs.month.toNat - 1
  tmMday := regs.date.toNat
  tmYear := regs.year.toNat + 70

/-- `time()`: `rt_rtc_control` with `RT_DEVICE_CTRL_RTC_GET_TIME`. -/
def rtcTime (regs : RtcRegs) : Int := rtMktime (readRegs regs)

section
variable (localtime : Int → Tm) (mktime : Tm → Int)

/-- `rt_rtc_control` with `RT_DEVICE_CTRL_RTC_SET_TIME`: what the registers hold then. -/
def rtcSetTime (time : Int) : RtcRegs :=
  let tm := localtime time
  { seconds := UInt8.ofInt tm.tmSec
    minutes := UInt8.ofInt tm.tmMin
    hours := UInt8.ofInt tm.tmHour
    month := UInt8.ofInt (tm.tmMon + 1)
    date := UInt8.ofInt tm.tmMday
    year := UInt8.ofInt (tm.tmYear - 70) }

/-- The guard of `Bsp_set_time`: the broken-down time `ti` is that of the arguments, up to less
than five seconds. -/
def nearlySet (ti : Tm) (year month day hour min sec : UInt8) : Bool :=
  ti.tmYear == (year.toNat + 2000 : Int) - 1900 && ti.tmMon == month.toNat &&
    ti.tmMday == day.toNat && ti.tmHour == hour.toNat && ti.tmMin == min.toNat &&
    decide ((if (sec.toNat : Int) < ti.tmSec then ti.tmSec - sec.toNat else sec.toNat - ti.tmSec) < 5)

/-- `Bsp_set_time`: what the registers hold then. -/
def bspSetTime (regs : RtcRegs) (year month day hour min sec : UInt8) : RtcRegs :=
  if (year = 0 ∧ month = 0 ∧ day = 0 ∧ hour = 0 ∧ min = 0 ∧ sec = 0) ∨
      (year = 0xff ∧ month = 0xff ∧ day = 0xff ∧ hour = 0xff ∧ min = 0xff ∧ sec = 0xff) then regs
  else if year < 14 then regs
  else
    let now := rtcTime regs
    let ti := localtime now
    if nearlySet ti year month day hour min sec then regs
    else
      let det := mktime {
        tmYear := (year.toNat + 2000) - 1900
        tmMon := month.toNat - 1
        tmMday := day.toNat
        tmHour := hour.toNat
        tmMin := min.toNat
        tmSec := sec.toNat }
      if 5 ≤ det then rtcSetTime localtime det else regs

end

/-- A civil time as `struct tm`. -/
def tmOf (c : Civil) : Tm where
  tmSec := c.second
  tmMin := c.minute
  tmHour := c.hour
  tmMday := c.day
  tmMon := c.month - 1
  tmYear := c.year - 1900

/-- A civil time of the years that 32-bit seconds cover. -/
structure InEra (c : Civil) : Prop extends c.Valid where
  le : c.year ≤ 2037

/-- `localtime` and `mktime` are the conversions of UTC. -/
structure UtcConversions (localtime : Int → Tm) (mktime : Tm → Int) : Prop where
  localtime_eq : ∀ c, InEra c → localtime c.seconds = tmOf c
  mktime_eq : ∀ c, InEra c → mktime (tmOf c) = c.seconds

/-- The arguments of `Bsp_set_time` for a civil time. -/
def setTimeTo (localtime : Int → Tm) (mktime : Tm → Int) (regs : RtcRegs) (c : Civil) : RtcRegs :=
  bspSetTime localtime mktime regs (UInt8.ofNat (c.year - 2000)) (UInt8.ofNat c.month)
    (UInt8.ofNat c.day) (UInt8.ofNat c.hour) (UInt8.ofNat c.minute) (UInt8.ofNat c.second)

/-- Two civil times of the same minute. -/
def SameMinute (c d : Civil) : Prop :=
  c.year = d.year ∧ c.month = d.month ∧ c.day = d.day ∧ c.hour = d.hour ∧ c.minute = d.minute

/-- The clock, now at `cur`, is set to `req` if that is five seconds off or more; if it is
less, in the same minute, the clock is left as it is. -/
def SetsClock (localtime : Int → Tm) (mktime : Tm → Int) (regs : RtcRegs) (cur req : Civil) :
    Prop :=
  (5 ≤ ((req.seconds : Int) - cur.seconds).natAbs →
    rtcTime (setTimeTo localtime mktime regs req) = req.seconds) ∧
  (((req.seconds : Int) - cur.seconds).natAbs < 5 → SameMinute cur req →
    rtcTime (setTimeTo localtime mktime regs req) = rtcTime regs)

theorem InEra.day_le {c : Civil} (h : InEra c) : c.day ≤ 31 := by
  refine Nat.le_trans h.day.2 ?_
  unfold monthDays
  split_ifs <;> omega

/-! ## `rt_mktime` and the calendar -/

/-- The seconds before a month, as `rt_mktime` counts them. -/
def monthBegin (k m : Int) : Int :=
  31536000 * k + 86400 * (k + 1).tdiv 4 + monthTab.getD m.toNat 0 -
    if 1 < m ∧ (k + 2).tmod 4 ≠ 0 then 86400 else 0

theorem rtMktime_eq (tm : Tm) : rtMktime tm =
    monthBegin (tm.tmYear - 70) tm.tmMon + 86400 * (tm.tmMday - 1) + 3600 * tm.tmHour +
      60 * tm.tmMin + tm.tmSec := by
  unfold rtMktime monthBegin
  dsimp only
  split_ifs <;> omega

/-- The leap years of `rt_mktime` are those of the calendar, as long as 32 bits last. -/
theorem monthBegin_calendar : ∀ k < 68, ∀ m < 12, monthBegin (k : Nat) (m : Nat) =
    86400 * ((before yearDays k + before (monthDays (1970 + k)) m : Nat) : Int) := by
  decide +kernel

theorem rtMktime_tmOf {c : Civil} (h : InEra c) : rtMktime (tmOf c) = c.seconds := by
  obtain ⟨k, hk⟩ := Nat.exists_eq_add_of_le h.year
  obtain ⟨m, hm⟩ := Nat.exists_eq_add_of_le' h.month.1
  have hle := h.le
  have hmonth := h.month.2
  have hday := h.day.1
  have hcal := monthBegin_calendar k (by omega) m (by omega)
  have hyear : ((c.year : Int) - 1900) - 70 = (k : Nat) := by omega
  have hmon : (c.month : Int) - 1 = (m : Nat) := by omega
  rw [rtMktime_eq]
  unfold tmOf
  dsimp only
  rw [hyear, hmon, hcal]
  unfold Civil.seconds Civil.days
  rw [hk, hm, Nat.add_sub_cancel_left, Nat.add_sub_cancel]
  omega

theorem toNat_ofInt_natCast {n : Nat} (h : n < 256) : (UInt8.ofInt n).toNat = n := by
  unfold UInt8.ofInt
  rw [Int.emod_eq_of_lt (Int.natCast_nonneg n) (by omega), Int.toNat_natCast,
    UInt8.toNat_ofNat_of_lt' h]

section
variable {localtime : Int → Tm} {mktime : Tm → Int}

/-- The registers give back the time that they are set to. -/
theorem readRegs_rtcSetTime (hu : UtcConversions localtime mktime) {c : Civil} (h : InEra c) :
    readRegs (rtcSetTime localtime c.seconds) = tmOf c := by
  have hyear := h.year
  have hle := h.le
  have hmonth := h.month
  have hday := h.day_le
  have hhour := h.hour
  have hminute := h.minute
  have hsecond := h.second
  have hy : (c.year : Int) - 1900 - 70 = (c.year - 1970 : Nat) := by omega
  have hm : (c.month : Int) - 1 + 1 = (c.month : Nat) := by omega
  unfold readRegs rtcSetTime
  rw [hu.localtime_eq c h]
  unfold tmOf
  simp only [hy, hm]
  rw [toNat_ofInt_natCast (show c.second < 256 by omega),
    toNat_ofInt_natCast (show c.minute < 256 by omega),
    toNat_ofInt_natCast (show c.hour < 256 by omega),
    toNat_ofInt_natCast (show c.day < 256 by omega),
    toNat_ofInt_natCast (show c.month < 256 by omega),
    toNat_ofInt_natCast (show c.year - 1970 < 256 by omega), Tm.mk.injEq]
  exact ⟨rfl, rfl, rfl, rfl, rfl, by omega⟩

theorem rtcTime_rtcSetTime (hu : UtcConversions localtime mktime) {c : Civil} (h : InEra c) :
    rtcTime (rtcSetTime localtime c.seconds) = c.seconds := by
  unfold rtcTime
  rw [readRegs_rtcSetTime hu h, rtMktime_tmOf h]

/-! ## `Bsp_set_time` -/

/-- The current time is that of the arguments but one month on, up to less than five
seconds. -/
def OneMonthOn (cur req : Civil) : Prop :=
  cur.year = req.year ∧ cur.month = req.month + 1 ∧ cur.day = req.day ∧ cur.hour = req.hour ∧
    cur.minute = req.minute ∧ ((cur.second : Int) - req.second).natAbs < 5

/-- The arguments of `Bsp_set_time` are bytes. -/
theorem InEra.lt {c : Civil} (h : InEra c) : c.year - 2000 < 256 ∧ c.month < 256 ∧ c.day < 256 ∧
    c.hour < 256 ∧ c.minute < 256 ∧ c.second < 256 := by
  have hle := h.le
  have hmonth := h.month
  have hday := h.day_le
  have hhour := h.hour
  have hminute := h.minute
  have hsecond := h.second
  omega

/-- The guard compares with the month after the requested one. -/
theorem nearlySet_iff {cur req : Civil} (hr : InEra req) (hy : 2014 ≤ req.year) :
    nearlySet (tmOf cur) (UInt8.ofNat (req.year - 2000)) (UInt8.ofNat req.month)
      (UInt8.ofNat req.day) (UInt8.ofNat req.hour) (UInt8.ofNat req.minute)
      (UInt8.ofNat req.second) = true ↔ OneMonthOn cur req := by
  obtain ⟨hyear, hmonth, hday, hhour, hminute, hsecond⟩ := hr.lt
  unfold nearlySet OneMonthOn tmOf
  simp only [Bool.and_eq_true, beq_iff_eq, decide_eq_true_eq, UInt8.toNat_ofNat_of_lt' hyear,
    UInt8.toNat_ofNat_of_lt' hmonth, UInt8.toNat_ofNat_of_lt' hday,
    UInt8.toNat_ofNat_of_lt' hhour, UInt8.toNat_ofNat_of_lt' hminute,
    UInt8.toNat_ofNat_of_lt' hsecond]
  split_ifs <;> omega

/-- What `mktime` gets for the arguments. -/
theorem tmOf_arguments {req : Civil} (hr : InEra req) (hy : 2014 ≤ req.year) :
    ({ tmYear := ((UInt8.ofNat (req.year - 2000)).toNat + 2000) - 1900
       tmMon := (UInt8.ofNat req.month).toNat - 1
       tmMday := (UInt8.ofNat req.day).toNat
       tmHour := (UInt8.ofNat req.hour).toNat
       tmMin := (UInt8.ofNat req.minute).toNat
       tmSec := (UInt8.ofNat req.second).toNat } : Tm) = tmOf req := by
  obtain ⟨hyear, hmonth, hday, hhour, hminute, hsecond⟩ := hr.lt
  unfold tmOf
  rw [UInt8.toNat_ofNat_of_lt' hyear, UInt8.toNat_ofNat_of_lt' hmonth,
    UInt8.toNat_ofNat_of_lt' hday, UInt8.toNat_ofNat_of_lt' hhour,
    UInt8.toNat_ofNat_of_lt' hminute, UInt8.toNat_ofNat_of_lt' hsecond, Tm.mk.injEq]
  exact ⟨rfl, rfl, rfl, rfl, rfl, by omega⟩

/-- The seconds of a civil time are those of its year at least. -/
theorem le_seconds (c : Civil) : 86400 * (c.year - 1970) ≤ c.seconds := by
  have hle := Civil.le_before_years (c.year - 1970)
  unfold Civil.seconds Civil.days
  omega

/-- `Bsp_set_time` sets the clock unless the guard stops it. -/
theorem setTimeTo_eq (hu : UtcConversions localtime mktime) {regs : RtcRegs} {cur req : Civil}
    (hc : InEra cur) (hr : InEra req) (hy : 2014 ≤ req.year) (hnow : rtcTime regs = cur.seconds) :
    setTimeTo localtime mktime regs req =
      if nearlySet (tmOf cur) (UInt8.ofNat (req.year - 2000)) (UInt8.ofNat req.month)
        (UInt8.ofNat req.day) (UInt8.ofNat req.hour) (UInt8.ofNat req.minute)
        (UInt8.ofNat req.second) then regs
      else rtcSetTime localtime req.seconds := by
  obtain ⟨hyear, hmonth, -⟩ := hr.lt
  have hle := hr.le
  have hmonth' := hr.month
  have hy0 : UInt8.ofNat (req.year - 2000) ≠ 0 := by
    intro he
    have h := congrArg UInt8.toNat he
    rw [UInt8.toNat_ofNat_of_lt' hyear] at h
    simp at h
    omega
  have hm255 : UInt8.ofNat req.month ≠ 0xff := by
    intro he
    have h := congrArg UInt8.toNat he
    rw [UInt8.toNat_ofNat_of_lt' hmonth] at h
    simp at h
    omega
  have hy14 : ¬ UInt8.ofNat (req.year - 2000) < 14 := by
    rw [UInt8.lt_iff_toNat_lt, UInt8.toNat_ofNat_of_lt' hyear]
    simp
    omega
  have hsec : (5 : Int) ≤ req.seconds := by
    have h := le_seconds req
    omega
  unfold setTimeTo bspSetTime
  rw [if_neg (by rintro (h | h); exacts [hy0 h.1, hm255 h.2.1]), if_neg hy14]
  dsimp only
  rw [hnow, hu.localtime_eq cur hc, tmOf_arguments hr hy, hu.mktime_eq req hr, if_pos hsec]

theorem rtcTime_setTimeTo_of_guard (hu : UtcConversions localtime mktime) {regs : RtcRegs}
    {cur req : Civil} (hc : InEra cur) (hr : InEra req) (hy : 2014 ≤ req.year)
    (hnow : rtcTime regs = cur.seconds) (h : OneMonthOn cur req) :
    rtcTime (setTimeTo localtime mktime regs req) = cur.seconds := by
  rw [setTimeTo_eq hu hc hr hy hnow, if_pos ((nearlySet_iff hr hy).mpr h), hnow]

theorem rtcTime_setTimeTo (hu : UtcConversions localtime mktime) {regs : RtcRegs}
    {cur req : Civil} (hc : InEra cur) (hr : InEra req) (hy : 2014 ≤ req.year)
    (hnow : rtcTime regs = cur.seconds) (h : ¬ OneMonthOn cur req) :
    rtcTime (setTimeTo localtime mktime regs req) = req.seconds := by
  rw [setTimeTo_eq hu hc hr hy hnow, if_neg (fun hg => h ((nearlySet_iff hr hy).mp hg)),
    rtcTime_rtcSetTime hu hr]

/-- A time one month on is more than five seconds off. -/
theorem OneMonthOn.far {cur req : Civil} (hr : InEra req) (h : OneMonthOn cur req) :
    5 ≤ ((req.seconds : Int) - cur.seconds).natAbs := by
  obtain ⟨hy, hm, hd, hh, hmin, hs⟩ := h
  obtain ⟨m, hm'⟩ := Nat.exists_eq_add_of_le' hr.month.1
  have hlen : 28 ≤ monthDays req.year m := by
    unfold monthDays
    split_ifs <;> omega
  have hnext : before (monthDays req.year) (m + 1) =
      before (monthDays req.year) m + monthDays req.year m := rfl
  unfold Civil.seconds Civil.days
  rw [hy, hm, hd, hh, hmin, hm', Nat.add_sub_cancel, Nat.add_sub_cancel, hnext]
  omega

theorem SameMinute.sub {cur req : Civil} (h : SameMinute cur req) :
    (req.seconds : Int) - cur.seconds = (req.second : Int) - cur.second := by
  obtain ⟨hy, hm, hd, hh, hmin⟩ := h
  unfold Civil.seconds Civil.days
  rw [hy, hm, hd, hh, hmin]
  omega

/-- The clock is set as asked for if and only if the current time is not one month on from the
requested one up to less than five seconds, nor in the same minute less than five seconds off
without being equal. -/
theorem setsClock_iff (hu : UtcConversions localtime mktime) {regs : RtcRegs} {cur req : Civil}
    (hc : InEra cur) (hr : InEra req) (hy : 2014 ≤ req.year)
    (hnow : rtcTime regs = cur.seconds) :
    SetsClock localtime mktime regs cur req ↔
      ¬ OneMonthOn cur req ∧
        ¬ (SameMinute cur req ∧ cur.second ≠ req.second ∧
          ((req.second : Int) - cur.second).natAbs < 5) := by
  unfold SetsClock
  by_cases hmonth : OneMonthOn cur req
  · have hfar := hmonth.far hr
    rw [rtcTime_setTimeTo_of_guard hu hc hr hy hnow hmonth]
    constructor
    · intro h
      have heq := h.1 hfar
      omega
    · intro h
      exact absurd hmonth h.1
  · rw [rtcTime_setTimeTo hu hc hr hy hnow hmonth, hnow]
    constructor
    · intro h
      refine ⟨hmonth, ?_⟩
      rintro ⟨hsame, hne, hlt⟩
      have hsub := hsame.sub
      have heq := h.2 (by rw [hsub]; exact hlt) hsame
      omega
    · intro h
      refine ⟨fun _ => rfl, fun hlt hsame => ?_⟩
      have hsub := hsame.sub
      by_contra hne
      exact h.2 ⟨hsame, by omega, by omega⟩

end

/-! ## The conversions of UTC -/

def utcLocaltime (time : Int) : Tm := tmOf (Civil.ofSeconds time.toNat)

def utcMktime (tm : Tm) : Int :=
  Civil.seconds {
    year := (tm.tmYear + 1900).toNat
    month := (tm.tmMon + 1).toNat
    day := tm.tmMday.toNat
    hour := tm.tmHour.toNat
    minute := tm.tmMin.toNat
    second := tm.tmSec.toNat }

theorem utcConversions : UtcConversions utcLocaltime utcMktime := by
  refine ⟨fun c h => ?_, fun c h => ?_⟩
  · unfold utcLocaltime
    rw [Int.toNat_natCast, Civil.ofSeconds_seconds h.toValid]
  · have hyear : ((c.year : Int) - 1900 + 1900).toNat = c.year := by omega
    have hmonth : ((c.month : Int) - 1 + 1).toNat = c.month := by omega
    unfold utcMktime tmOf
    dsimp only
    rw [hyear, hmonth]
    rfl

/-- The tenth of March 2020, noon, and the registers at that time. -/
def marchNoon : Civil := ⟨2020, 3, 10, 12, 0, 0⟩
def marchNoonRegs : RtcRegs := ⟨0, 0, 12, 10, 3, 50⟩

/-- Three seconds later in the same minute, and in February. -/
def marchLater : Civil := ⟨2020, 3, 10, 12, 0, 3⟩
def februaryLater : Civil := ⟨2020, 2, 10, 12, 0, 3⟩

theorem marchNoon_inEra : InEra marchNoon ∧ InEra marchLater ∧ InEra februaryLater := by
  refine ⟨⟨⟨?_, ?_, ?_, ?_, ?_, ?_⟩, ?_⟩, ⟨⟨?_, ?_, ?_, ?_, ?_, ?_⟩, ?_⟩,
    ⟨⟨?_, ?_, ?_, ?_, ?_, ?_⟩, ?_⟩⟩ <;> decide

/-- A correction by three seconds is made, and one by a month is not. -/
theorem marchNoon_set :
    ¬ SetsClock utcLocaltime utcMktime marchNoonRegs marchNoon marchLater ∧
      ¬ SetsClock utcLocaltime utcMktime marchNoonRegs marchNoon februaryLater := by
  have hlater : rtcTime (setTimeTo utcLocaltime utcMktime marchNoonRegs marchLater) =
      marchLater.seconds := by decide +kernel
  have hstays : rtcTime (setTimeTo utcLocaltime utcMktime marchNoonRegs februaryLater) =
      rtcTime marchNoonRegs := by decide +kernel
  constructor
  · intro h
    have heq := h.2 (by decide +kernel) ⟨rfl, rfl, rfl, rfl, rfl⟩
    rw [hlater] at heq
    exact absurd heq (by decide +kernel)
  · intro h
    have heq := h.1 (by decide +kernel)
    rw [hstays] at heq
    exact absurd heq (by decide +kernel)

/-- One hour later the clock is set. -/
theorem setsClock_hourLater :
    SetsClock utcLocaltime utcMktime marchNoonRegs marchNoon ⟨2020, 3, 10, 13, 0, 0⟩ :=
  (setsClock_iff utcConversions marchNoon_inEra.1
    ⟨⟨by decide, by decide, by decide, by decide, by decide, by decide⟩, by decide⟩ (by decide)
    (by decide +kernel)).mpr (by
      constructor
      · intro h
        exact absurd h.2.1 (by decide)
      · intro h
        exact absurd h.1.2.2.2.1 (by decide))

end SC04Monitor.Drivers
