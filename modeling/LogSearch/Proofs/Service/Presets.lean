/-
Presets: the last part of a range, up to some length.

The last part of a range ends where the range does, and begins a given length before its end, or
at its start if that is later. There is always one such part (`existsUnique_isLastPart`), however
long it may be: the start of the range is a time, so what is later is one too.

A preset is granted less often. The length is taken off the end before this is compared with the
start, and there is no time before the calendar begins. So what decides is the end of the range
alone: it has to lie a length behind the first midnight (`Reaches`). If it does, the last part is
what comes of the preset, and if it does not nothing comes of it, although the range as a whole
is the part that was asked for (`isLastPart_self_of_not_reaches`). No request expects this, so
the service crashes.

The end of the range of a workspace is the latest end among its sources, so for a workspace it
takes one source that reaches far enough.
-/
import LogSearch.Proofs.Calendar.Counting
import LogSearch.Proofs.TimeRange.Semilattice
import LogSearch.Proofs.Timestamp.Shapes
import LogSearch.Service.Handling

set_option autoImplicit false

namespace LogSearch

namespace Calendar.DateTime

/-- There is a time some length before another one exactly if that is no earlier than the first
midnight. -/
theorem exists_shift?_neg_iff {t : DateTime} {length : Nat} :
    (∃ s, t.shift? (-(length : Int)) = some s) ↔ microsPerDay + length ≤ t.toMicros := by
  simp only [shift?_eq_some_iff]
  constructor
  · rintro ⟨s, hs⟩
    have hlow := (exists_toMicros_iff.mp ⟨s, rfl⟩).1
    omega
  · intro hlow
    have hhigh := (exists_toMicros_iff.mp ⟨t, rfl⟩).2
    obtain ⟨s, hs⟩ := exists_toMicros_iff.mpr
      (⟨by omega, by omega⟩ : microsPerDay ≤ t.toMicros - length
        ∧ t.toMicros - length < (lastDayNumber + 1) * microsPerDay)
    exact ⟨s, by omega⟩

end Calendar.DateTime

namespace TimeRange

open Calendar (DateTime)
open Calendar.DateTime (microsPerDay)

/-! ## The last part of a range -/

section LastPart

variable {overall r s : TimeRange} {length : Option Nat}

/-- The count of the time at which the last part of a range begins; without a length this is the
whole range. -/
def lastPartStart (overall : TimeRange) : Option Nat → Int
  | none => overall.start.toMicros
  | some length => max overall.start.toMicros (overall.stop.toMicros - length)

theorem lastPartStart_some (overall : TimeRange) (length : Nat) :
    overall.lastPartStart (some length)
      = max (overall.start.toMicros : Int) (overall.stop.toMicros - length) := rfl

/-- The last part of a range, up to some length. -/
structure IsLastPart (overall : TimeRange) (length : Option Nat) (r : TimeRange) : Prop where
  start : (r.start.toMicros : Int) = overall.lastPartStart length
  stop : r.stop = overall.stop
  yearSource : r.yearSource = overall.yearSource

/-- Whether a range ends at least some length behind the first midnight of the calendar. -/
def Reaches (overall : TimeRange) : Option Nat → Prop
  | none => True
  | some length => microsPerDay + length ≤ overall.stop.toMicros

theorem start_le_lastPartStart (overall : TimeRange) (length : Option Nat) :
    (overall.start.toMicros : Int) ≤ overall.lastPartStart length := by
  cases length with
  | none => exact Int.le_refl _
  | some length => exact Int.le_max_left _ _

theorem lastPartStart_le_stop (overall : TimeRange) (length : Option Nat) :
    overall.lastPartStart length ≤ overall.stop.toMicros := by
  have hordered := DateTime.le_iff.mp overall.ordered
  cases length with
  | none => exact Int.ofNat_le.mpr hordered
  | some length =>
    rw [lastPartStart_some]
    omega

theorem IsLastPart.isWithin (h : overall.IsLastPart length r) :
    overall.start ≤ r.start ∧ r.stop ≤ overall.stop := by
  have hstart := start_le_lastPartStart overall length
  rw [← h.start] at hstart
  rw [h.stop]
  exact ⟨DateTime.le_iff.mpr (Int.ofNat_le.mp hstart), Nat.le_refl _⟩

theorem IsLastPart.unique (hr : overall.IsLastPart length r) (hs : overall.IsLastPart length s) :
    r = s := by
  refine TimeRange.ext (DateTime.eq_of_toMicros_eq ?_) (hr.stop.trans hs.stop.symm)
    (hr.yearSource.trans hs.yearSource.symm)
  exact Int.ofNat_inj.mp (hr.start.trans hs.start.symm)

/-- There is always one last part: where it begins lies between two times. -/
theorem existsUnique_isLastPart (overall : TimeRange) (length : Option Nat) :
    ∃! r, overall.IsLastPart length r := by
  have hstart := start_le_lastPartStart overall length
  have hstop := lastPartStart_le_stop overall length
  obtain ⟨n, hn⟩ := Int.eq_ofNat_of_zero_le (Int.le_trans (Int.natCast_nonneg _) hstart)
  have hlow := (DateTime.exists_toMicros_iff.mp ⟨overall.start, rfl⟩).1
  have hhigh := (DateTime.exists_toMicros_iff.mp ⟨overall.stop, rfl⟩).2
  obtain ⟨t, ht⟩ := DateTime.exists_toMicros_iff.mpr
    (⟨by omega, by omega⟩ : microsPerDay ≤ n ∧ n < (Calendar.lastDayNumber + 1) * microsPerDay)
  have hordered : t ≤ overall.stop := DateTime.le_iff.mpr (by omega)
  have hpart : overall.IsLastPart length ⟨t, overall.stop, overall.yearSource, hordered⟩ :=
    ⟨by rw [hn, ht], rfl, rfl⟩
  exact ⟨_, hpart, fun s hs => hs.unique hpart⟩

/-- A range that does not reach far enough is its own last part. -/
theorem isLastPart_self_of_not_reaches (h : ¬ overall.Reaches length) :
    overall.IsLastPart length overall := by
  refine ⟨?_, rfl, rfl⟩
  cases length with
  | none => exact absurd trivial h
  | some length =>
    have hlow := (DateTime.exists_toMicros_iff.mp ⟨overall.start, rfl⟩).1
    have hshort : ¬ microsPerDay + length ≤ overall.stop.toMicros := h
    rw [lastPartStart_some]
    omega

/-- A merge reaches far enough exactly if one of its ranges does: its end is the latest one. -/
theorem reaches_merge_iff {ranges : List TimeRange} (h : merge ranges = some overall) :
    overall.Reaches length ↔ ∃ r ∈ ranges, r.Reaches length := by
  obtain ⟨-, x, hx, hstop⟩ := exists_bounds_of_merge h
  constructor
  · intro hreaches
    refine ⟨x, hx, ?_⟩
    unfold Reaches at *
    rwa [hstop]
  · rintro ⟨r, hr, hreaches⟩
    have hle := DateTime.le_iff.mp ((isLeastCover_merge h).covers r hr).2
    cases length with
    | none => trivial
    | some length => exact Nat.le_trans hreaches hle

end LastPart

/-! ## Presets -/

section Presets

variable {overall r : TimeRange} {name : String} {length : Option Nat}

theorem ofBounds_eq (r : TimeRange) : ofBounds r.start r.stop r.yearSource = .ok r :=
  dif_pos r.ordered

theorem preset_of_reaches (hname : presetLength? name = some length) (h : overall.Reaches length)
    (hpart : overall.IsLastPart length r) : overall.preset name = .ok r := by
  unfold preset
  rw [hname]
  cases length with
  | none =>
    obtain rfl : overall = r := TimeRange.ext
      (DateTime.eq_of_toMicros_eq (Int.ofNat_inj.mp hpart.start.symm)) hpart.stop.symm
      hpart.yearSource.symm
    rfl
  | some length =>
    obtain ⟨start, hshift⟩ := DateTime.exists_shift?_neg_iff.mpr h
    have hcount := DateTime.shift?_eq_some_iff.mp hshift
    have hstart := hpart.start
    rw [lastPartStart_some] at hstart
    dsimp only
    rw [hshift]
    dsimp only
    -- what is taken is the later one of the two times, as in the last part
    split
    · rename_i hless
      have hless := DateTime.lt_iff.mp hless
      have htime : overall.start = r.start := DateTime.eq_of_toMicros_eq (by omega)
      rw [htime, ← hpart.stop, ← hpart.yearSource, ofBounds_eq]
    · rename_i hless
      have hless := mt DateTime.lt_iff.mpr hless
      have htime : start = r.start := DateTime.eq_of_toMicros_eq (by omega)
      rw [htime, ← hpart.stop, ← hpart.yearSource, ofBounds_eq]

theorem preset_of_not_reaches (hname : presetLength? name = some length)
    (h : ¬ overall.Reaches length) : overall.preset name = .error .outsideCalendar := by
  unfold preset
  rw [hname]
  cases length with
  | none => exact absurd trivial h
  | some length =>
    have hshift : overall.stop.shift? (-(length : Int)) = none := by
      refine Option.eq_none_iff_forall_not_mem.mpr fun start hstart => h ?_
      exact DateTime.exists_shift?_neg_iff.mp ⟨start, hstart⟩
    dsimp only
    rw [hshift]

/-- What a known preset comes to. -/
theorem preset_cases (overall : TimeRange) (hname : presetLength? name = some length) :
    (overall.Reaches length ∧ ∃ r, overall.IsLastPart length r ∧ overall.preset name = .ok r)
      ∨ (¬ overall.Reaches length ∧ overall.preset name = .error .outsideCalendar) := by
  by_cases hreaches : overall.Reaches length
  · obtain ⟨r, hr, -⟩ := existsUnique_isLastPart overall length
    exact .inl ⟨hreaches, r, hr, preset_of_reaches hname hreaches hr⟩
  · exact .inr ⟨hreaches, preset_of_not_reaches hname hreaches⟩

end Presets

end TimeRange

namespace Service

open Json (Value)

variable {s : Service} {name : String} {overall : TimeRange}

/-- What a preset of a range comes to as a reply. -/
def presetReply (name : String) : Except RangeError TimeRange → Reply
  | .ok range =>
    ⟨200, .json (.object [("preset", .string name), ("time_range", Report.range range)])⟩
  | .error .outsideCalendar => Refusal.crashed.reply
  | .error e => (Refusal.denied 400 e.message).reply

theorem endpoint_presetRange {request : Request}
    (h : Endpoint.ofSegments? (pathSegments request.target) = some (.presetRange name)
      ∧ request.method = "GET") : request.endpoint = .ok (.presetRange name) := by
  rw [Request.endpoint, h.1]
  exact if_pos h.2.symm

theorem reply_presetRange {link : Remote.Link} {request : Request}
    (hendpoint : request.endpoint = .ok (.presetRange name))
    (hrange : s.workspace.range? = some overall) :
    (s.handle link request).reply = presetReply name (overall.preset name) := by
  unfold handle
  rw [hendpoint]
  show replyOf (s.presetRange name) = _
  have hpreset : s.workspace.preset name = (overall.preset name).map some := by
    unfold Workspace.preset
    rw [hrange]
  unfold presetRange
  rw [hpreset]
  cases overall.preset name with
  | ok range => rfl
  | error e => cases e <;> rfl

theorem reaches_range?_iff {length : Option Nat} (hrange : s.workspace.range? = some overall) :
    overall.Reaches length
      ↔ ∃ source ∈ s.workspace.readySources, ∃ r ∈ source.range?, r.Reaches length := by
  rw [TimeRange.reaches_merge_iff hrange]
  simp only [List.mem_filterMap]
  constructor
  · rintro ⟨r, ⟨source, hsource, hr⟩, hreaches⟩
    exact ⟨source, hsource, r, hr, hreaches⟩
  · rintro ⟨source, hsource, r, hr, hreaches⟩
    exact ⟨r, ⟨source, hsource, hr⟩, hreaches⟩

/-- **When presets are granted.** A range has one last part of every length, which lies within it.
A known preset comes to this part exactly if the range ends at least the length of the preset
behind the first midnight of the calendar, and to an error otherwise. The endpoint then replies
with this part, or else crashes. For the range of a workspace what counts is whether some source
that is ready ends as late. -/
theorem preset_granted_iff (overall : TimeRange) {name : String} {length : Option Nat}
    (hname : TimeRange.presetLength? name = some length) :
    (∃! r, overall.IsLastPart length r)
      ∧ (∀ r, overall.IsLastPart length r → overall.start ≤ r.start ∧ r.stop ≤ overall.stop)
      ∧ (∀ r, overall.preset name = .ok r ↔ overall.Reaches length ∧ overall.IsLastPart length r)
      ∧ (overall.preset name = .error .outsideCalendar ↔ ¬ overall.Reaches length)
      ∧ ∀ (s : Service) (link : Remote.Link) (request : Request),
        request.endpoint = .ok (.presetRange name) → s.workspace.range? = some overall →
        (∀ r, overall.Reaches length → overall.IsLastPart length r →
          (s.handle link request).reply = presetReply name (.ok r))
        ∧ ((s.handle link request).reply.status = 200 ↔ overall.Reaches length)
        ∧ ((s.handle link request).reply.status = 500 ↔ ¬ overall.Reaches length)
        ∧ (overall.Reaches length
          ↔ ∃ source ∈ s.workspace.readySources, ∃ r ∈ source.range?, r.Reaches length) := by
  refine ⟨TimeRange.existsUnique_isLastPart overall length, fun r hr => hr.isWithin, ?_⟩
  -- either way the endpoint replies with what the preset comes to
  rcases TimeRange.preset_cases overall hname with
    ⟨hreaches, part, hpart, hpreset⟩ | ⟨hshort, hpreset⟩
  · have hiff : ∀ r, part = r ↔ overall.IsLastPart length r := fun r =>
      ⟨fun h => h ▸ hpart, fun hr => hpart.unique hr⟩
    refine ⟨fun r => ?_, ?_, fun s link request hendpoint hrange => ?_⟩
    · rw [hpreset, Except.ok.injEq, hiff r, and_iff_right hreaches]
    · rw [hpreset]
      exact iff_of_false nofun (not_not_intro hreaches)
    · rw [reply_presetRange hendpoint hrange, hpreset]
      refine ⟨fun r _ hr => by rw [(hiff r).mpr hr], iff_of_true rfl hreaches, ?_,
        reaches_range?_iff hrange⟩
      exact iff_of_false (by decide : (200 : Nat) ≠ 500) (not_not_intro hreaches)
  · refine ⟨fun r => ?_, ?_, fun s link request hendpoint hrange => ?_⟩
    · rw [hpreset]
      exact iff_of_false nofun fun h => hshort h.1
    · exact iff_of_true hpreset hshort
    · rw [reply_presetRange hendpoint hrange, hpreset]
      exact ⟨fun r hreaches => absurd hreaches hshort,
        iff_of_false (by decide : (500 : Nat) ≠ 200) hshort, iff_of_true rfl hshort, reaches_range?_iff hrange⟩

/-- The last hour of two hours, and of a service that has loaded a log of them. -/
theorem preset_granted_iff_lastHour :
    let tenToTwelve : TimeRange := ⟨⟨⟨2024, 1, 2, by decide⟩, 10, 0, 0, 0, by decide⟩,
      ⟨⟨2024, 1, 2, by decide⟩, 12, 0, 0, 0, by decide⟩, .none, by decide⟩
    let lastHour : TimeRange := ⟨⟨⟨2024, 1, 2, by decide⟩, 11, 0, 0, 0, by decide⟩,
      ⟨⟨2024, 1, 2, by decide⟩, 12, 0, 0, 0, by decide⟩, .none, by decide⟩
    let env : Environment := { currentYear := 2026, processors := none }
    let data := Text.encodeUtf8 "2024-01-02 10:00:00 up\n2024-01-02 12:00:00 down"
    tenToTwelve.preset "last1h" = .ok lastHour
      ∧ ∃ source workspace, Workspace.add env 1000 {} "a.log" data = .ok (source, workspace)
        ∧ ∀ link, (({ environment := env, remote := {}, engine := { settings := {} }, workspace } :
          Service).handle link ⟨"GET", "/api/time-range/preset/last1h", .empty⟩).reply.status
            = 200 := by
  intro tenToTwelve lastHour env data
  have hname : TimeRange.presetLength? "last1h" = some (some 3600000000) := rfl
  have hreaches : tenToTwelve.Reaches (some 3600000000) := by
    show Calendar.DateTime.microsPerDay + 3600000000 ≤ tenToTwelve.stop.toMicros
    decide
  have hpart : tenToTwelve.IsLastPart (some 3600000000) lastHour :=
    ⟨by decide, rfl, rfl⟩
  obtain ⟨-, -, hpreset, -, hreply⟩ := preset_granted_iff tenToTwelve hname
  have hrange : ((Workspace.add env 1000 {} "a.log" data).toOption.bind (·.2.range?))
      = some tenToTwelve := by decide +kernel
  obtain ⟨⟨source, workspace⟩, hadd, hrange⟩ := Option.bind_eq_some_iff.mp hrange
  refine ⟨(hpreset lastHour).mpr ⟨hreaches, hpart⟩, source, workspace,
    eq_ok_of_toOption_eq_some hadd, fun link => ?_⟩
  exact (hreply _ link _ (endpoint_presetRange (by decide +kernel)) hrange).2.1.mpr hreaches

/-- A log that ends within the first hour of the calendar. Its last hour is the whole of it, and
asking for it crashes the service. -/
theorem preset_crashes_of_firstHour :
    let firstHalfHour : TimeRange := ⟨⟨⟨1, 1, 1, by decide⟩, 0, 0, 0, 0, by decide⟩,
      ⟨⟨1, 1, 1, by decide⟩, 0, 30, 0, 0, by decide⟩, .none, by decide⟩
    let env : Environment := { currentYear := 2026, processors := none }
    let data := Text.encodeUtf8 "0001-01-01 00:00:00 up\n0001-01-01 00:30:00 down"
    firstHalfHour.IsLastPart (some 3600000000) firstHalfHour
      ∧ (¬ ∃ r, firstHalfHour.preset "last1h" = .ok r)
      ∧ ∃ source workspace, Workspace.add env 1000 {} "a.log" data = .ok (source, workspace)
        ∧ workspace.range? = some firstHalfHour
        ∧ ∀ link, (({ environment := env, remote := {}, engine := { settings := {} }, workspace } :
          Service).handle link ⟨"GET", "/api/time-range/preset/last1h", .empty⟩).reply.status
            = 500 := by
  intro firstHalfHour env data
  have hname : TimeRange.presetLength? "last1h" = some (some 3600000000) := rfl
  have hshort : ¬ firstHalfHour.Reaches (some 3600000000) := by
    show ¬ Calendar.DateTime.microsPerDay + 3600000000 ≤ firstHalfHour.stop.toMicros
    decide
  have hpreset := TimeRange.preset_of_not_reaches hname hshort
  have hrange : ((Workspace.add env 1000 {} "a.log" data).toOption.bind (·.2.range?))
      = some firstHalfHour := by decide +kernel
  obtain ⟨⟨source, workspace⟩, hadd, hrange⟩ := Option.bind_eq_some_iff.mp hrange
  refine ⟨TimeRange.isLastPart_self_of_not_reaches hshort, ?_, source, workspace,
    eq_ok_of_toOption_eq_some hadd, hrange, fun link => ?_⟩
  · rintro ⟨r, hr⟩
    cases hpreset.symm.trans hr
  · have hendpoint : Request.endpoint ⟨"GET", "/api/time-range/preset/last1h", .empty⟩
        = .ok (.presetRange "last1h") := endpoint_presetRange (by decide +kernel)
    rw [reply_presetRange hendpoint hrange, hpreset]
    rfl

end Service

end LogSearch
