import RequestAtlas.Document.Environment
import RequestAtlas.Proofs.Calendar.Days
import RequestAtlas.Proofs.Json.Spelling
/-!
# Times of export

The stamp of an environment is a time in universal time, written to the millisecond.  `instant` places moments on one
line of time by counting days, and `read?` reads a stamp.  Main statement `environment_stamped`: the stamp reads as the
last millisecond that has begun at the moment, whatever its zone, and there is no stamp exactly if the calendar does not
reach the moment's date in universal time.
-/

namespace RequestAtlas

namespace Moment

/-- A time of day on a date of the calendar. -/
structure Genuine (m : Moment) : Prop where
  date : m.date.Genuine
  year : m.date.year ≤ Date.maxYear
  hour : m.hour < 24
  minute : m.minute < 60
  second : m.second < 60
  microsecond : m.microsecond < 1000000

instance (m : Moment) : Decidable m.Genuine :=
  decidable_of_iff (m.date.Genuine ∧ m.date.year ≤ Date.maxYear ∧ m.hour < 24 ∧ m.minute < 60 ∧ m.second < 60 ∧
      m.microsecond < 1000000)
    ⟨fun ⟨hdate, hyear, hhour, hminute, hsecond, hsmall⟩ => ⟨hdate, hyear, hhour, hminute, hsecond, hsmall⟩,
      fun ⟨hdate, hyear, hhour, hminute, hsecond, hsmall⟩ => ⟨hdate, hyear, hhour, hminute, hsecond, hsmall⟩⟩

/-- The zone of the moment is known, and less than a day away from universal time. -/
def Zoned (m : Moment) : Prop := ∃ offset, m.offset = some offset ∧ -86400 < offset ∧ offset < 86400

/-- The microseconds from the start of the calendar in universal time to the moment. -/
def instant (m : Moment) : Int :=
  1000000 * (86400 * m.date.elapsed + 3600 * m.hour + 60 * m.minute + m.second - m.offset.getD 0) + m.microsecond

/-- The calendar reaches the moment's date in universal time. -/
def InCalendar (m : Moment) : Prop := ∃ u : Moment, u.Genuine ∧ u.offset = some 0 ∧ u.instant = m.instant

/-! ## Seconds of universal time -/

theorem instant_eq {m : Moment} (h : m.date.Genuine) :
    m.instant = 1000000 * (m.utcSeconds - daySeconds) + m.microsecond := by
  rw [instant, utcSeconds, localSeconds, Date.number_eq h, daySeconds]
  push_cast
  omega

/-- Counting seconds on from the start of the calendar gives a time of day on one of its dates. -/
theorem genuine_ofSeconds {seconds microsecond : Nat} (hfirst : daySeconds ≤ seconds)
    (hlast : seconds < (Date.lastNumber + 1) * daySeconds) (hmicrosecond : microsecond < 1000000) :
    (ofSeconds seconds microsecond).Genuine ∧ (ofSeconds seconds microsecond).utcSeconds = seconds := by
  obtain ⟨hgenuine, hnumber⟩ := Date.ofNumber_spec (n := seconds / daySeconds) (by unfold daySeconds at *; omega)
  have hyear : (Date.ofNumber (seconds / daySeconds)).year ≤ Date.maxYear := by
    rw [← Date.number_le_lastNumber_iff hgenuine, hnumber]
    unfold daySeconds at *
    omega
  constructor
  · have hhour : seconds % daySeconds / 3600 < 24 := by
      unfold daySeconds
      omega
    exact ⟨hgenuine, hyear, hhour, Nat.mod_lt _ (by decide), Nat.mod_lt _ (by decide), hmicrosecond⟩
  · rw [utcSeconds, localSeconds, ofSeconds]
    dsimp only
    rw [hnumber]
    unfold daySeconds
    simp only [Option.getD_some, Int.sub_zero]
    omega

/-- The universal time of a moment, if its seconds lie in the calendar, has the moment's place on the line of time. -/
theorem instant_ofSeconds {m : Moment} (hm : m.Genuine) (hfirst : daySeconds ≤ m.utcSeconds)
    (hlast : m.utcSeconds < (Date.lastNumber + 1) * daySeconds) :
    (ofSeconds m.utcSeconds.toNat m.microsecond).Genuine ∧
      (ofSeconds m.utcSeconds.toNat m.microsecond).instant = m.instant := by
  have hseconds : (m.utcSeconds.toNat : Int) = m.utcSeconds := Int.toNat_of_nonneg (by omega)
  rw [← hseconds] at hfirst hlast
  obtain ⟨hgenuine, hutc⟩ := genuine_ofSeconds (by exact_mod_cast hfirst) (by exact_mod_cast hlast) hm.microsecond
  refine ⟨hgenuine, ?_⟩
  rw [instant_eq hgenuine.date, instant_eq hm.date, hutc, hseconds]
  rfl

theorem utcSeconds_of_offset {u : Moment} (h : u.offset = some 0) : u.utcSeconds = u.localSeconds := by
  rw [utcSeconds, h]
  exact Int.sub_zero _

/-- The seconds of a time of day on a date of the calendar. -/
theorem localSeconds_bounds {u : Moment} (h : u.Genuine) :
    daySeconds ≤ u.localSeconds ∧ u.localSeconds < (Date.lastNumber + 1) * daySeconds := by
  have hnumber := Date.number_eq h.date
  have hlast := (Date.number_le_lastNumber_iff h.date).2 h.year
  have hhour := h.hour
  have hminute := h.minute
  have hsecond := h.second
  rw [localSeconds]
  unfold daySeconds
  omega

theorem inCalendar_iff {m : Moment} (h : m.Genuine) :
    m.InCalendar ↔ daySeconds ≤ m.utcSeconds ∧ m.utcSeconds < (Date.lastNumber + 1) * daySeconds := by
  constructor
  · rintro ⟨u, hu, hoffset, hinstant⟩
    have hmicrosecond := h.microsecond
    have hsmall := hu.microsecond
    rw [instant_eq hu.date, instant_eq h.date] at hinstant
    have hseconds : m.utcSeconds = u.localSeconds := by
      rw [← utcSeconds_of_offset hoffset]
      omega
    rw [hseconds]
    exact localSeconds_bounds hu
  · rintro ⟨hfirst, hlast⟩
    obtain ⟨hgenuine, hinstant⟩ := instant_ofSeconds h hfirst hlast
    exact ⟨_, hgenuine, rfl, hinstant⟩

/-! ## Reading a stamp -/

/-- A number in decimal digits, and what stands behind the mark that ends it. -/
def number? (mark : Char) (cs : List Char) : Option (Nat × List Char) :=
  match cs.takeWhile Char.isDigit, cs.dropWhile Char.isDigit with
  | d :: ds, c :: rest => if c = mark then some (Nat.ofDigitChars 10 (d :: ds) 0, rest) else none
  | _, _ => none

/-- Read a stamp: year, month, day, hour, minute, second and millisecond of a universal time. -/
def read? (stamp : String) : Option Moment := do
  let (year, cs) ← number? '-' stamp.toList
  let (month, cs) ← number? '-' cs
  let (day, cs) ← number? 'T' cs
  let (hour, cs) ← number? ':' cs
  let (minute, cs) ← number? ':' cs
  let (second, cs) ← number? '.' cs
  let (millisecond, cs) ← number? 'Z' cs
  if cs = [] then
    some { date := ⟨year, month, day⟩, hour, minute, second, microsecond := 1000 * millisecond, offset := some 0 }
  else none

theorem number?_digits {ds : List Char} (hdigits : ds.all Char.isDigit = true) (hne : ds ≠ []) {mark : Char}
    (hmark : mark.isDigit = false) (rest : List Char) :
    number? mark (ds ++ mark :: rest) = some (Nat.ofDigitChars 10 ds 0, rest) := by
  have hafter : ∀ c ∈ (mark :: rest).head?, c.isDigit = false := by simpa using hmark
  obtain ⟨htake, hdrop⟩ := Json.takeWhile_digits hdigits hafter
  obtain ⟨d, ds, rfl⟩ := List.exists_cons_of_ne_nil hne
  rw [number?, htake, hdrop]
  simp

theorem number?_padded (width n : Nat) {mark : Char} (hmark : mark.isDigit = false) (rest : List Char) :
    number? mark ((padded width n).toList ++ mark :: rest) = some (n, rest) := by
  have hdigits : ((padded width n).toList).all Char.isDigit = true := by
    rw [padded, String.toList_ofList, List.all_append, Json.toDigits_all, Bool.and_true, List.all_eq_true]
    intro c hc
    rw [List.eq_of_mem_replicate hc]
    rfl
  have hne : (padded width n).toList ≠ [] := by
    rw [padded, String.toList_ofList]
    exact List.append_ne_nil_of_right_ne_nil _ Nat.toDigits_ne_nil
  rw [number?_digits hdigits hne hmark, padded, String.toList_ofList, Nat.ofDigitChars_append,
    Nat.ofDigitChars_replicate_zero, Nat.mul_zero, Nat.ofDigitChars_toDigits (by decide) (by decide)]

/-- A stamp reads as the time it was written for, without what is less than a millisecond. -/
theorem read?_text (m : Moment) :
    read? m.text = some { m with microsecond := 1000 * (m.microsecond / 1000), offset := some 0 } := by
  have hyear : toString m.date.year = padded 0 m.date.year := by
    rw [← String.toList_inj]
    simp [padded]
  have htext : m.text.toList = (padded 0 m.date.year).toList ++ '-' :: ((padded 2 m.date.month).toList ++
      '-' :: ((padded 2 m.date.day).toList ++ 'T' :: ((padded 2 m.hour).toList ++ ':' :: ((padded 2 m.minute).toList ++
      ':' :: ((padded 2 m.second).toList ++ '.' :: ((padded 3 (m.microsecond / 1000)).toList ++ ['Z'])))))) := by
    simp [text, hyear]
  rw [read?, htext]
  simp [number?_padded]

/-! ## Universal time -/

/-- Where the zone is known, universal time depends on the moment's place on the line of time. -/
theorem utc_eq {m : Moment} (h : m.Zoned) : m.utc =
    if m.utcSeconds < daySeconds ∨ (Date.lastNumber + 1) * daySeconds ≤ m.utcSeconds then .error .outOfRange
    else .ok (ofSeconds m.utcSeconds.toNat m.microsecond) := by
  obtain ⟨offset, hoffset, _⟩ := h
  simp [utc, hoffset]

theorem utc_of_inCalendar {m : Moment} (hm : m.Genuine) (hzone : m.Zoned) (h : m.InCalendar) :
    ∃ u, m.utc = .ok u ∧ u.Genuine ∧ u.offset = some 0 ∧ u.instant = m.instant := by
  obtain ⟨hfirst, hlast⟩ := (inCalendar_iff hm).1 h
  obtain ⟨hgenuine, hinstant⟩ := instant_ofSeconds hm hfirst hlast
  rw [utc_eq hzone, if_neg (by omega)]
  exact ⟨_, rfl, hgenuine, rfl, hinstant⟩

theorem utc_of_not_inCalendar {m : Moment} (hm : m.Genuine) (hzone : m.Zoned) (h : ¬ m.InCalendar) :
    m.utc = .error .outOfRange := by
  rw [inCalendar_iff hm] at h
  rw [utc_eq hzone, if_pos (by omega)]

/-- The same place on the line of time is the same universal time. -/
theorem utc_congr {m m' : Moment} (hm : m.Genuine) (hzone : m.Zoned) (hm' : m'.Genuine) (hzone' : m'.Zoned)
    (h : m'.instant = m.instant) : m'.utc = m.utc := by
  have hsmall := hm.microsecond
  have hsmall' := hm'.microsecond
  rw [instant_eq hm.date, instant_eq hm'.date] at h
  have hseconds : m'.utcSeconds = m.utcSeconds := by omega
  have hmicrosecond : m'.microsecond = m.microsecond := by omega
  rw [utc_eq hzone, utc_eq hzone', hseconds, hmicrosecond]

/-- A universal time without what is less than a millisecond. -/
theorem instant_truncated {u : Moment} (hu : u.Genuine) (hoffset : u.offset = some 0) :
    ({ u with microsecond := 1000 * (u.microsecond / 1000), offset := some 0 } : Moment).Genuine ∧
      ({ u with microsecond := 1000 * (u.microsecond / 1000), offset := some 0 } : Moment).instant =
        u.instant - (u.microsecond % 1000 : Nat) := by
  have hsmall := hu.microsecond
  refine ⟨⟨hu.date, hu.year, hu.hour, hu.minute, hu.second, by dsimp only; omega⟩, ?_⟩
  simp only [instant, hoffset]
  omega

end Moment

/-! ## Environments -/

open Moment

/-- An environment is stamped with a universal time of the calendar, and the moment lies in the millisecond that
begins there. -/
def Document.StampedWith (m : Moment) (doc : Value) : Prop :=
  ∃ entries stamp t, doc = .dict entries ∧ Value.get? entries "_postman_exported_at" = some (.string stamp) ∧
    read? stamp = some t ∧ t.Genuine ∧ t.offset = some 0 ∧ t.instant ≤ m.instant ∧ m.instant < t.instant + 1000

namespace Document

/-- **The stamp of an environment denotes the moment of its export.**  It is missing exactly if the calendar does not
reach the moment's date in universal time, and it is the same for every zone that the moment is told in. -/
theorem environment_stamped {m : Moment} (hm : m.Genuine) (hzone : m.Zoned) (name : String) :
    (environment name m = .error .outOfRange ↔ ¬ m.InCalendar) ∧
      (m.InCalendar → ∃ doc, environment name m = .ok doc ∧ StampedWith m doc) ∧
      ∀ m' : Moment, m'.Genuine → m'.Zoned → m'.instant = m.instant → environment name m' = environment name m := by
  have hout : ¬ m.InCalendar → environment name m = .error .outOfRange := by
    intro hcalendar
    rw [environment, stamp, utc_of_not_inCalendar hm hzone hcalendar]
    rfl
  have hin : m.InCalendar → ∃ doc, environment name m = .ok doc ∧ StampedWith m doc := by
    intro hcalendar
    obtain ⟨u, hutc, hu, hoffset, hinstant⟩ := utc_of_inCalendar hm hzone hcalendar
    obtain ⟨ht, htruncated⟩ := instant_truncated hu hoffset
    rw [environment, stamp, hutc]
    refine ⟨_, rfl, _, u.text, _, rfl, rfl, read?_text u, ht, rfl, ?_, ?_⟩
    · rw [htruncated, hinstant]
      omega
    · rw [htruncated, hinstant]
      omega
  refine ⟨⟨fun herror hcalendar => ?_, hout⟩, hin, fun m' hm' hzone' hinstant => ?_⟩
  · obtain ⟨doc, hdoc, _⟩ := hin hcalendar
    rw [herror] at hdoc
    cases hdoc
  · rw [environment, environment, stamp, stamp, utc_congr hm hzone hm' hzone' hinstant]

/-- The night after a leap day, by a clock ahead of universal time. -/
def nightEast : Moment :=
  { date := ⟨2024, 3, 1⟩, hour := 0, minute := 30, second := 0, microsecond := 123456, offset := some 19800 }

/-- The same moment by a clock behind universal time, where the leap day is not over. -/
def afternoonWest : Moment :=
  { date := ⟨2024, 2, 29⟩, hour := 14, minute := 0, second := 0, microsecond := 123456, offset := some (-18000) }

theorem environment_stamped_nightEast : nightEast.Genuine ∧ nightEast.Zoned ∧ nightEast.InCalendar ∧
    (∃ doc, environment "x" nightEast = .ok doc ∧ StampedWith nightEast doc) ∧
    environment "x" afternoonWest = environment "x" nightEast := by
  have heast : nightEast.Genuine := by decide
  have hwest : afternoonWest.Genuine := by decide
  have hzone : nightEast.Zoned := ⟨19800, rfl, by decide, by decide⟩
  have hzone' : afternoonWest.Zoned := ⟨-18000, rfl, by decide, by decide⟩
  have hcalendar : nightEast.InCalendar := (inCalendar_iff heast).2 (by decide)
  have hinstant : afternoonWest.instant = nightEast.instant := by
    rw [instant_eq heast.date, instant_eq hwest.date]
    decide
  obtain ⟨_, hstamp, hsame⟩ := environment_stamped heast hzone "x"
  exact ⟨heast, hzone, hcalendar, hstamp hcalendar,
    hsame afternoonWest hwest hzone' hinstant⟩

example : nightEast.stamp = .ok "2024-02-29T19:00:00.123Z" := by rfl

end Document

end RequestAtlas
