import GeoAlmanac.Proofs.Calendar.Order
import GeoAlmanac.Proofs.Sun.Minutes

/-! The log of a solve in binary64. Every search leaves the reports that belong to its outcome, and
a search without an instant is the last of its solve; so the last report tells which kind of day was
found. Coordinates may be any doubles and the elementary functions any functions. -/

namespace GeoAlmanac

theorem Date.exists_atHour?_float (date : Date) {hour : Float} (h : isHourOfDay hour = true) :
    ∃ t, date.atHour? hour = some t := by
  obtain ⟨_, _, hshows⟩ := exists_shows h
  obtain ⟨t, ht, _⟩ := hshows.atHour? date
  exact ⟨t, ht⟩

/-- A report with which a search ends that has found no instant for a given reason. -/
def Event.Names {α : Type} (e : Event α) : Absence → Prop
  | .polarDay => ∃ s c, e = .polarDay s c
  | .polarNight => ∃ s c, e = .polarNight s c
  | .outsideDay => ∃ s hour, e = .unwrapped s hour

/-- The words that tell a reader the reason. -/
def Absence.words : Absence → String
  | .polarDay => ": polar day for "
  | .polarNight => ": polar night for "
  | .outsideDay => " needs more than one wraparound (UT "

theorem Event.Names.message {e : Event Float} {reason : Absence} (h : e.Names reason) :
    ∃ before after, e.message = before ++ reason.words ++ after := by
  cases reason <;> obtain ⟨s, x, rfl⟩ := h <;> refine ⟨Event.subject s, ?_⟩
  · refine ⟨s.zenith.name ++ " (cos H = " ++ Decimal.fixed 5 x ++ ")", ?_⟩
    simp only [← String.append_assoc]
    rfl
  · refine ⟨s.zenith.name ++ " (cos H = " ++ Decimal.fixed 5 x ++ ")", ?_⟩
    simp only [← String.append_assoc]
    rfl
  · refine ⟨Decimal.fixed 4 x ++ " h)", ?_⟩
    simp only [← String.append_assoc]
    rfl

/-- Reports of crossings alone. -/
def AllTrace {α : Type} (events : List (Event α)) : Prop :=
  ∀ e ∈ events, e.level = .trace

/-- How the reports of a solve tell the kind of its day. Only the end of the calendar, where `late`
holds, leaves no report. -/
structure SolarDay.Told {α : Type} (day : SolarDay) (late : Prop) (events : List (Event α)) :
    Prop where
  regular : ∀ rise set, day = .regular rise set → AllTrace events
  polarDay : day = .polarDay ↔ ∃ e, events.getLast? = some e ∧ e.Names .polarDay
  polarNight : day = .polarNight ↔ ∃ e, events.getLast? = some e ∧ e.Names .polarNight
  debug : day = .polarDay ∨ day = .polarNight ↔
    ∃ e, events.getLast? = some e ∧ e.level = .debug
  warn : day = .unresolved ↔ (∃ e, events.getLast? = some e ∧ e.level = .warn) ∨ late
  single : events.countP (fun e => e.level ≠ .trace) ≤ 1

theorem AllTrace.append {α : Type} {first second : List (Event α)} (h : AllTrace first)
    (h' : AllTrace second) : AllTrace (first ++ second) :=
  List.forall_mem_append.mpr ⟨h, h'⟩

theorem AllTrace.countP_eq {α : Type} {events : List (Event α)} (h : AllTrace events) :
    events.countP (fun e => e.level ≠ .trace) = 0 := by
  rw [List.countP_eq_zero]
  intro e he
  simp [h e he]

namespace SolarDay

theorem told_of_absence {α : Type} {reason : Absence} {late : Prop} {before : List (Event α)}
    {e : Event α} (hbefore : AllTrace before) (he : e.Names reason) (hlate : ¬ late) :
    Told reason.solarDay late (before ++ [e]) := by
  have hsingle : (before ++ [e]).countP (fun e => e.level ≠ .trace) ≤ 1 := by
    rw [List.countP_append, hbefore.countP_eq, zero_add]
    exact List.countP_le_length
  cases reason <;> obtain ⟨s, c, rfl⟩ := he <;>
    refine ⟨fun rise set h => absurd h Absence.solarDay_ne_regular, ?_, ?_, ?_, ?_, hsingle⟩ <;>
    simp [Absence.solarDay, Event.Names, Event.level, hlate]

theorem told_of_allTrace {α : Type} {day : SolarDay} {late : Prop} {events : List (Event α)}
    (h : AllTrace events)
    (hday : (∃ rise set, day = .regular rise set) ∧ ¬ late ∨ day = .unresolved ∧ late) :
    Told day late events := by
  have hlast : ∀ {e}, events.getLast? = some e → e.level = .trace := fun he =>
    h _ (List.mem_of_getLast? he)
  have hnames : ∀ reason, ¬ ∃ e, events.getLast? = some e ∧ e.Names reason := by
    rintro reason ⟨e, he, hname⟩
    have htrace := hlast he
    cases reason <;> obtain ⟨s, c, rfl⟩ := hname <;> simp [Event.level] at htrace
  have hlevel : ∀ level, level ≠ .trace → ¬ ∃ e, events.getLast? = some e ∧ e.level = level := by
    rintro level hne ⟨e, he, hlevel⟩
    exact hne (hlevel.symm.trans (hlast he))
  refine ⟨fun _ _ _ => h, ?_, ?_, ?_, ?_, h.countP_eq.le.trans zero_le_one⟩
  all_goals simp only [hnames, hlevel _ (show Level.debug ≠ .trace by decide),
    hlevel _ (show Level.warn ≠ .trace by decide)]
  all_goals rcases hday with ⟨⟨rise, set, rfl⟩, hlate⟩ | ⟨rfl, hlate⟩ <;> simp [hlate]

end SolarDay

section
variable [Elementary Float]

/-- The reports that belong to the outcome of a search: a crossing that has an instant, the reason
why there is none, or a crossing with a warning that it lies outside the day. -/
inductive Search.Reports (s : Search Float) :
    Except Absence Instant → List (Event Float) → Prop where
  | placed {day hour : Float} {t : Instant} : isHourOfDay hour = true →
      Reports s (.ok t) [.computed s day hour]
  | polarDay (c : Float) : Reports s (.error .polarDay) [.polarDay s c]
  | polarNight (c : Float) : Reports s (.error .polarNight) [.polarNight s c]
  | outsideDay {day hour : Float} : isHourOfDay hour = false →
      Reports s (.error .outsideDay) [.computed s day hour, .unwrapped s hour]

theorem Search.run_reports (s : Search Float) : s.Reports s.run.value s.run.events := by
  unfold run
  dsimp only
  cases s.crossing with
  | polarNight c => exact .polarNight c
  | polarDay c => exact .polarDay c
  | crosses day hour =>
    cases hhour : isHourOfDay hour with
    | true =>
      obtain ⟨t, ht⟩ := s.date.exists_atHour?_float hhour
      simp only [Crossing.instant, Crossing.events, hhour, ht, if_true]
      exact .placed hhour
    | false =>
      simp only [Crossing.instant, Crossing.events, hhour, Bool.false_eq_true, if_false]
      exact .outsideDay hhour

namespace SolarDay

/-- The courses that a solve can take: the kind of day and the searches that led to it, first to
last. -/
inductive Course (place : Coordinate Float) (zenith : Zenith) (date : Date) :
    SolarDay → List (Search Float) → Prop where
  | noSunrise {reason : Absence} : crossingOn place zenith .sunrise date = .error reason →
      Course place zenith date reason.solarDay [⟨place, date, zenith, .sunrise⟩]
  | noSunset {rise : Instant} {reason : Absence} :
      crossingOn place zenith .sunrise date = .ok rise →
      crossingOn place zenith .sunset date = .error reason →
      Course place zenith date reason.solarDay
        [⟨place, date, zenith, .sunrise⟩, ⟨place, date, zenith, .sunset⟩]
  | sameDate {rise set : Instant} : crossingOn place zenith .sunrise date = .ok rise →
      crossingOn place zenith .sunset date = .ok set → ¬ set < rise →
      Course place zenith date (.regular rise set)
        [⟨place, date, zenith, .sunrise⟩, ⟨place, date, zenith, .sunset⟩]
  | endOfCalendar {rise set : Instant} : crossingOn place zenith .sunrise date = .ok rise →
      crossingOn place zenith .sunset date = .ok set → set < rise → date.next? = none →
      Course place zenith date .unresolved
        [⟨place, date, zenith, .sunrise⟩, ⟨place, date, zenith, .sunset⟩]
  | noSunsetNext {rise early : Instant} {next : Date} {reason : Absence} :
      crossingOn place zenith .sunrise date = .ok rise →
      crossingOn place zenith .sunset date = .ok early → early < rise →
      date.next? = some next → crossingOn place zenith .sunset next = .error reason →
      Course place zenith date reason.solarDay [⟨place, date, zenith, .sunrise⟩,
        ⟨place, date, zenith, .sunset⟩, ⟨place, next, zenith, .sunset⟩]
  | nextDate {rise early set : Instant} {next : Date} :
      crossingOn place zenith .sunrise date = .ok rise →
      crossingOn place zenith .sunset date = .ok early → early < rise →
      date.next? = some next → crossingOn place zenith .sunset next = .ok set →
      Course place zenith date (.regular rise set) [⟨place, date, zenith, .sunrise⟩,
        ⟨place, date, zenith, .sunset⟩, ⟨place, next, zenith, .sunset⟩]

theorem course_solve (place : Coordinate Float) (date : Date) (zenith : Zenith) :
    ∃ searches, Course place zenith date (solve place date zenith).value searches ∧
      (solve place date zenith).events = searches.flatMap fun s => s.run.events := by
  unfold solve
  dsimp only
  split
  next reason hr => exact ⟨_, .noSunrise hr, by simp⟩
  next rise hr =>
    split
    next reason hs => exact ⟨_, .noSunset hr hs, by simp⟩
    next set hs =>
      split
      next hlt =>
        split
        next hn => exact ⟨_, .endOfCalendar hr hs hlt hn, by simp⟩
        next next hn =>
          split
          next reason hf => exact ⟨_, .noSunsetNext hr hs hlt hn hf, by simp⟩
          next set' hf => exact ⟨_, .nextDate hr hs hlt hn hf, by simp⟩
      next hlt => exact ⟨_, .sameDate hr hs hlt, by simp⟩

end SolarDay

theorem Search.events_of_ok {s : Search Float} {t : Instant} (h : s.run.value = .ok t) :
    AllTrace s.run.events ∧ s.run.events.length = 1 := by
  have hreports := s.run_reports
  rw [h] at hreports
  generalize s.run.events = events at *
  cases hreports with
  | placed _ => exact ⟨by simp [AllTrace, Event.level], rfl⟩

theorem Search.events_of_error {s : Search Float} {reason : Absence}
    (h : s.run.value = .error reason) :
    ∃ before e, s.run.events = before ++ [e] ∧ AllTrace before ∧ e.Names reason := by
  have hreports := s.run_reports
  rw [h] at hreports
  generalize s.run.events = events at *
  cases hreports with
  | polarDay c => exact ⟨[], _, rfl, by simp [AllTrace], s, c, rfl⟩
  | polarNight c => exact ⟨[], _, rfl, by simp [AllTrace], s, c, rfl⟩
  | @outsideDay day hour _ =>
    exact ⟨[.computed s day hour], _, rfl, by simp [AllTrace, Event.level], s, hour, rfl⟩

namespace SolarDay

/-- Sunrise and sunset of the last date are found, in the wrong order. -/
def LateSunrise (place : Coordinate Float) (zenith : Zenith) (date : Date) : Prop :=
  date = Date.last ∧ ∃ rise set, crossingOn place zenith .sunrise date = .ok rise ∧
    crossingOn place zenith .sunset date = .ok set ∧ set < rise

theorem LateSunrise.next? {place : Coordinate Float} {zenith : Zenith} {date : Date}
    (h : LateSunrise place zenith date) : date.next? = none :=
  Date.next?_eq_none_iff_last.mpr h.1

theorem Course.told {place : Coordinate Float} {zenith : Zenith} {date : Date} {day : SolarDay}
    {searches : List (Search Float)} (h : Course place zenith date day searches) :
    day.Told (LateSunrise place zenith date) (searches.flatMap fun s => s.run.events) := by
  cases h with
  | noSunrise hr =>
    obtain ⟨before, e, hevents, hbefore, he⟩ := Search.events_of_error hr
    have hlate : ¬ LateSunrise place zenith date := by
      rintro ⟨_, rise, set, hr', _⟩
      simp [hr] at hr'
    simpa [hevents] using told_of_absence hbefore he hlate
  | noSunset hr hs =>
    obtain ⟨before, e, hevents, hbefore, he⟩ := Search.events_of_error hs
    have hlate : ¬ LateSunrise place zenith date := by
      rintro ⟨_, rise, set, _, hs', _⟩
      simp [hs] at hs'
    have hrising := (Search.events_of_ok hr).1
    simpa [hevents] using told_of_absence (hrising.append hbefore) he hlate
  | sameDate hr hs hlt =>
    have hlate : ¬ LateSunrise place zenith date := by
      rintro ⟨_, rise, set, hr', hs', hlt'⟩
      rw [hr] at hr'
      rw [hs] at hs'
      cases hr'
      cases hs'
      exact hlt hlt'
    have htrace := (Search.events_of_ok hr).1.append (Search.events_of_ok hs).1
    simpa using told_of_allTrace htrace (.inl ⟨⟨_, _, rfl⟩, hlate⟩)
  | endOfCalendar hr hs hlt hn =>
    have hlate : LateSunrise place zenith date :=
      ⟨Date.next?_eq_none_iff_last.mp hn, _, _, hr, hs, hlt⟩
    have htrace := (Search.events_of_ok hr).1.append (Search.events_of_ok hs).1
    simpa using told_of_allTrace htrace (.inr ⟨rfl, hlate⟩)
  | noSunsetNext hr hs hlt hn hf =>
    obtain ⟨before, e, hevents, hbefore, he⟩ := Search.events_of_error hf
    have hlate : ¬ LateSunrise place zenith date := fun hlate => by simp [hlate.next?] at hn
    have htrace := (Search.events_of_ok hr).1.append (Search.events_of_ok hs).1
    simpa [hevents] using told_of_absence (htrace.append hbefore) he hlate
  | nextDate hr hs hlt hn hf =>
    have hlate : ¬ LateSunrise place zenith date := fun hlate => by simp [hlate.next?] at hn
    have htrace := ((Search.events_of_ok hr).1.append (Search.events_of_ok hs).1).append
      (Search.events_of_ok hf).1
    simpa using told_of_allTrace htrace (.inl ⟨⟨_, _, rfl⟩, hlate⟩)

/-- A regular day has a report for each of its crossings and one more where the first sunset came
too early. -/
theorem Course.length_of_regular {place : Coordinate Float} {zenith : Zenith} {date : Date}
    {rise set : Instant} {searches : List (Search Float)}
    (h : Course place zenith date (.regular rise set) searches) :
    set.date = date ∧ (searches.flatMap fun s => s.run.events).length = 2 ∨
      date.next? = some set.date ∧ (searches.flatMap fun s => s.run.events).length = 3 := by
  generalize hday : SolarDay.regular rise set = day at h
  cases h with
  | noSunrise _ | noSunset _ _ | noSunsetNext _ _ _ _ _ =>
    exact absurd hday.symm Absence.solarDay_ne_regular
  | endOfCalendar _ _ _ _ => cases hday
  | sameDate hr hs _ =>
    cases hday
    left
    refine ⟨(crossingOn_placed hs).1, ?_⟩
    simp [(Search.events_of_ok hr).2, (Search.events_of_ok hs).2]
  | nextDate hr hs _ hn hf =>
    cases hday
    right
    rw [(crossingOn_placed hf).1]
    refine ⟨hn, ?_⟩
    simp [(Search.events_of_ok hr).2, (Search.events_of_ok hs).2, (Search.events_of_ok hf).2]

/-- The log tells the outcome. Its reports are those of the searches that were carried out, in their
order, and each search reports its own outcome; a regular day leaves only reports of crossings, two
or with the sunset of the next date three, and any other day is named by the last report, the only
one that is no report of a crossing, or is the last of the calendar. -/
theorem log_tells_outcome (place : Coordinate Float) (date : Date) (zenith : Zenith) :
    let day := solve place date zenith
    (∃ searches, Course place zenith date day.value searches ∧
      day.events = searches.flatMap (fun s => s.run.events) ∧
      ∀ s ∈ searches, s.Reports s.run.value s.run.events) ∧
    day.value.Told (LateSunrise place zenith date) day.events ∧
    (∀ e ∈ day.events, ∀ reason, e.Names reason →
      ∃ before after, e.message = before ++ reason.words ++ after) ∧
    ∀ rise set, day.value = .regular rise set →
      set.date = date ∧ day.events.length = 2 ∨
        date.next? = some set.date ∧ day.events.length = 3 := by
  intro day
  obtain ⟨searches, hcourse, hevents⟩ := course_solve place date zenith
  refine ⟨⟨searches, hcourse, hevents, fun s _ => s.run_reports⟩, hevents ▸ hcourse.told,
    fun e _ reason h => h.message, ?_⟩
  intro rise set hregular
  rw [hevents]
  exact (hregular ▸ hcourse).length_of_regular

end SolarDay

end

end GeoAlmanac
