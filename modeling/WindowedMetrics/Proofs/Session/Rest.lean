/-
Closed meters in a run.  Every command leaves what a closed meter shows as it
is, wherever the clock goes, and what drains take of its exemplars together
with those that are left was there when it was closed.
-/
import WindowedMetrics.Proofs.Meter.Rest
import WindowedMetrics.Proofs.Session.Invariant

namespace WindowedMetrics

/-- Every meter that was made is there after a command, put to uses. -/
theorem Registry.Changed.exists_used {r next : Registry} {c : Command}
    {now : Int} {brought : Nat → List Float}
    (h : r.Changed c now brought next) {reference : Nat} {meter : Meter}
    (hmeter : r.made[reference]? = some meter) :
    ∃ after, next.made[reference]? = some after ∧
      meter.Used now (brought reference) (c.keepsOpen = false) after := by
  obtain ⟨hlt, _⟩ := Array.getElem?_eq_some_iff.mp hmeter
  have hafter := Array.getElem?_eq_getElem (Nat.lt_of_lt_of_le hlt h.size_le)
  refine ⟨_, hafter, ?_⟩
  cases h.meters reference _ hafter with
  | used before hbefore hused =>
      cases hmeter.symm.trans hbefore
      exact hused
  | new id b own instrument hreference =>
      exact absurd hreference (Nat.ne_of_lt hlt)

/-- Whether a wall time that is set is one of 64 bits. -/
def Command.isTimely : Command → Bool
  | .setWall wall => decide (wall ≤ maxInt64)
  | _ => true

namespace Session

/-! ### Wall times -/

/-- The passing of time never leaves the times of 64 bits. -/
theorem wall_perform_le {s : Session} (hwall : s.clock.wall ≤ maxInt64)
    {c : Command} (htimely : c.isTimely = true) :
    (s.perform c).value.2.clock.wall ≤ maxInt64 := by
  have hsame {t : Session} (hclock : t.clock = s.clock) :
      t.clock.wall ≤ maxInt64 := hclock ▸ hwall
  cases c with
  | advance elapsed => exact wrapInt64_le _
  | setWall wall => exact of_decide_eq_true htimely
  | registry command =>
      cases command with
      | add name id parts own =>
          exact hsame (bindOutcome_keeps _ name _).2.2
      | register name id parts own =>
          exact hsame (bindOutcome_keeps _ name _).2.2
      | refuse name id => exact hsame (bindOutcome_keeps s name _).2.2
      | _ => exact hwall
  | meter name command => exact hsame (clock_onMeter s name _)
  | recordRun name elapsed =>
      simp only [perform, recordRun]
      split
      · exact hwall
      · split
        · rw [clock_onMeter]
          exact wrapInt64_le _
        · exact hwall
  | sample command =>
      cases command with
      | stop sample name =>
          exact hsame (Serves.stopOn s name _ ⟨_, _, rfl⟩ True).clock_eq
      | popScope name =>
          exact hsame (Serves.stopOn s name _ ⟨_, _, rfl⟩ True).clock_eq
      | startTask name task =>
          exact hsame (Serves.startTask s name task True).clock_eq
      | stopTask task => exact hsame (Serves.stopTask s task True).clock_eq
      | _ => exact hwall
  | exporter command => exact hsame (Serves.performExporter s command).clock_eq
  | _ => exact hwall

theorem wall_run_le {s : Session} (hwall : s.clock.wall ≤ maxInt64)
    {commands : List Command}
    (htimely : ∀ c ∈ commands, c.isTimely = true) :
    (s.run commands).2.clock.wall ≤ maxInt64 := by
  induction commands generalizing s with
  | nil => exact hwall
  | cons c rest ih =>
      exact ih (wall_perform_le hwall (htimely c List.mem_cons_self))
        fun other hother => htimely other (List.mem_cons_of_mem c hother)

/-! ### Drains -/

/-- The exemplars that a command is answered which drains the meter of a
reference. -/
def takenFrom (s : Session) (reference : Nat) (c : Command) :
    List Exemplar :=
  match c with
  | .meter name .takeExemplars =>
      match s.handle? name, (s.perform c).value.1 with
      | some (.made handled), .exemplars values =>
          if handled = reference then values else []
      | _, _ => []
  | _ => []

/-- The exemplars that drains of the meter of a reference return, in order. -/
def drained (s : Session) (reference : Nat) : List Command → List Exemplar
  | [] => []
  | c :: rest =>
      s.takenFrom reference c ++ drained (s.perform c).value.2 reference rest

section Meters

variable {s : Session} {reference : Nat} {meter : Meter}
  (hmeter : s.registry.made[reference]? = some meter)

include hmeter

/-- What a command on a meter puts in its place. -/
theorem made_perform {name : String}
    (hhandle : s.handle? name = some (.made reference)) {c : MeterCommand}
    {answer : Answer} {after : Meter}
    (hdone : performOn s.moment meter c = some (answer, after)) :
    (s.perform (.meter name c)).value.1 = answer ∧
      (s.perform (.meter name c)).value.2.registry.made[reference]? =
        some after := by
  obtain ⟨hlt, _⟩ := Array.getElem?_eq_some_iff.mp hmeter
  simp only [perform, onMeter, meter?, hhandle, Option.bind_some,
    Registry.meterOf?, hmeter, hdone, Session.answer, tick, put,
    Registry.put, true_and]
  rw [Array.getElem?_setIfInBounds_self_of_lt hlt]

/-- What a drain is answered is what the meter had to give. -/
theorem takenFrom_eq_nil_or (c : Command) :
    s.takenFrom reference c = [] ∨ ∃ next,
      meter.takeExemplars? s.clock.wall =
        some (s.takenFrom reference c, next) ∧
      (s.perform c).value.2.registry.made[reference]? = some next := by
  by_cases hdrains : ∃ name, c = .meter name .takeExemplars ∧
      s.handle? name = some (.made reference)
  · obtain ⟨name, rfl, hhandle⟩ := hdrains
    cases htaken : meter.takeExemplars? s.clock.wall with
    | none =>
        left
        have hother : performOn s.moment meter .takeExemplars = none :=
          congrArg (Option.map _) htaken
        simp only [takenFrom, perform, onMeter, meter?, hhandle,
          Option.bind_some, Registry.meterOf?, hmeter, hother, answer]
    | some answer =>
        obtain ⟨taken, next⟩ := answer
        right
        have hdone : performOn s.moment meter .takeExemplars =
            some (.exemplars taken, next) := congrArg (Option.map _) htaken
        obtain ⟨hanswer, hnext⟩ := made_perform hmeter hhandle hdone
        refine ⟨next, ?_, hnext⟩
        simp only [takenFrom, hhandle, hanswer, ↓reduceIte]
  · left
    unfold takenFrom
    split
    · rename_i name
      split
      · rename_i handled values hhandle _
        rw [if_neg]
        rintro rfl
        exact hdrains ⟨name, rfl, hhandle⟩
      · rfl
    · rfl

end Meters

/-! ### Closed meters -/

/-- The meter of a reference is closed and shows what it showed before; and
the exemplars `taken` since then, followed by those that are left, were left
then. -/
def Rests (s : Session) (reference : Nat) (before : Rest)
    (taken : List Exemplar) : Prop :=
  ∃ meter : Meter, s.registry.made[reference]? = some meter ∧
    meter.Closed ∧ meter.instrument.rest.shown = before.shown ∧
    (taken ++ meter.instrument.rest.left).Sublist before.left

namespace Rests

variable {s : Session} {config : RegistrySettings} {record : List Recorded}
  {reference : Nat} {before : Rest} {taken : List Exemplar}

theorem perform (h : s.Rests reference before taken)
    (hs : s.Sound config record) (hwall : s.clock.wall ≤ maxInt64)
    {c : Command} (htimely : c.isTimely = true) :
    (s.perform c).value.2.Rests reference before
      (taken ++ s.takenFrom reference c) := by
  obtain ⟨meter, hmeter, hclosed, hshown, htaken⟩ := h
  obtain ⟨after, hafter, hused⟩ :=
    (effect_perform hs.wellFormed c).registry.exists_used hmeter
  obtain ⟨hstill, hlasts⟩ :=
    hclosed.used (wall_perform_le hwall htimely) hused
  refine ⟨after, hafter, hstill, hlasts.shown_eq.trans hshown, ?_⟩
  have hmore : (s.takenFrom reference c ++
      after.instrument.rest.left).Sublist meter.instrument.rest.left := by
    rcases takenFrom_eq_nil_or hmeter c with hnothing | ⟨next, hdrain, hnext⟩
    · rw [hnothing, List.nil_append]
      exact hlasts.left_sublist
    · obtain rfl := Option.some.inj (hafter.symm.trans hnext)
      obtain ⟨hall, hnone⟩ := hclosed.takeExemplars?_eq hwall hdrain
      rw [hall, hnone, List.append_nil]
  rw [List.append_assoc]
  exact (hmore.append_left taken).trans htaken

theorem run (h : s.Rests reference before taken)
    (hs : s.Sound config record) (hwall : s.clock.wall ≤ maxInt64)
    {commands : List Command}
    (htimely : ∀ c ∈ commands, c.isTimely = true) :
    (s.run commands).2.Rests reference before
      (taken ++ s.drained reference commands) := by
  induction commands generalizing s record taken with
  | nil =>
      rw [drained, List.append_nil]
      exact h
  | cons c rest ih =>
      have hfirst := htimely c List.mem_cons_self
      rw [drained, ← List.append_assoc]
      exact ih (h.perform hs hwall hfirst) (hs.perform c)
        (wall_perform_le hwall hfirst)
        fun other hother => htimely other (List.mem_cons_of_mem c hother)

end Rests

/-- The windows of all meters of a run have steps that take time. -/
theorem timed_of_run {config : RegistrySettings}
    (hdelta : config.temporality = .delta) (exporter : ExportSettings)
    (context : Option TraceContext) (wall : Int)
    (draws : Nat → Nat → Nat) (commands : List Command)
    {reference : Nat} {meter : Meter}
    (hmeter : ((create config exporter context wall draws).run
      commands).2.registry.made[reference]? = some meter) :
    meter.instrument.Windows StepTracker.Timed := by
  have hall := (EveryMeter.create config exporter context wall draws
    fun meter _ => meter.instrument.Windows StepTracker.Timed).run
      (fun id b own now instrument => Blueprint.windows_instrument hdelta)
      (fun meter next now amounts more closing htimed hused => by
        obtain ⟨-, -, uses, -, -, hundergoes⟩ := hused
        exact htimed.undergoes
          (fun u _ => StepTracker.kept_timed u.moment.now) hundergoes)
      commands
  exact hall.meters reference meter hmeter

/-- Under delta temporality, closing a meter freezes it.  Whatever commands
follow, with wall times of 64 bits, it shows what it showed when it was
closed, and what they drain of it, followed by what a drain in the end would
return, are some of the exemplars that a drain would have returned then, each
at most once. -/
theorem closed_meters_rest (config : RegistrySettings)
    (exporter : ExportSettings) (context : Option TraceContext) (wall : Int)
    (draws : Nat → Nat → Nat)
    (before later : List Command) (hdelta : config.temporality = .delta)
    (hwall : wall ≤ maxInt64)
    (htimely : ∀ c ∈ before ++ later, c.isTimely = true) :
    let s := ((create config exporter context wall draws).run before).2
    let last := (s.run later).2
    ∀ reference (meter : Meter),
      s.registry.made[reference]? = some meter →
      (∀ m, (meter.close m).Closed) ∧
      (∀ name, s.handle? name = some (.made reference) →
        (s.perform (.meter name .close)).value.2.registry.made[reference]? =
          some (meter.close s.moment)) ∧
      (meter.Closed → ∃ after : Meter,
        last.registry.made[reference]? = some after ∧ after.Closed ∧
        after.deltaView last.moment = meter.deltaView s.moment ∧
        (s.drained reference later ++
          after.exemplarsAt last.clock.wall).Sublist
            (meter.exemplarsAt s.clock.wall)) := by
  intro s last reference meter hmeter
  have htimed := timed_of_run hdelta exporter context wall draws before hmeter
  refine ⟨htimed.close, ?_, ?_⟩
  · intro name hhandle
    exact (made_perform hmeter hhandle rfl).2
  · intro hclosed
    have hlater : ∀ c ∈ later, c.isTimely = true := fun c hc =>
      htimely c (List.mem_append_right _ hc)
    have hsound := (sound_create config exporter context wall draws).run before
    have hnow : s.clock.wall ≤ maxInt64 := wall_run_le hwall fun c hc =>
      htimely c (List.mem_append_left _ hc)
    have hlast : last.clock.wall ≤ maxInt64 := wall_run_le hnow hlater
    have hstart : s.Rests reference meter.instrument.rest [] :=
      ⟨meter, hmeter, hclosed, rfl, List.Sublist.refl _⟩
    obtain ⟨after, hafter, hend, hshown, hleft⟩ :=
      hstart.run hsound hnow hlater
    refine ⟨after, hafter, hend, ?_, ?_⟩
    · rw [hend.deltaView_eq (m := last.moment) hlast,
        hclosed.deltaView_eq (m := s.moment) hnow, hshown]
    · rw [hend.exemplarsAt_eq hlast, hclosed.exemplarsAt_eq hnow]
      exact hleft

/-- A counter that is closed in its first step goes on showing what it counted
by then, and gives its exemplar away once. -/
theorem closed_meters_rest_requests :
    let context : TraceContext := ⟨some [75, 249], some [0, 240], []⟩
    let config := { RegistrySettings.standard with
      temporality := .delta, exemplars := true }
    let early : List Command :=
      [.registry (.add "a" (.named "requests" []) .counter .empty),
        .meter "a" (.increment 2.0)]
    let later : List Command :=
      [.meter "a" (.increment 5.0), .advance (.ofSeconds 60),
        .registry .rolloverAll, .meter "a" .takeExemplars, .setWall 0,
        .meter "a" .close, .meter "a" .takeExemplars]
    let start := create config ExportSettings.standard (some context) 0
      fun _ _ => 0
    let s := (start.run (early ++ [.meter "a" .close])).2
    let last := (s.run later).2
    ∃ after : Meter, last.registry.made[0]? = some after ∧
      (after.deltaView last.moment).amount? = some 2.0 ∧
      (s.drained 0 later).length = 1 := by
  intro context config early later start s last
  have hopen := closed_meters_rest config ExportSettings.standard
    (some context) 0 (fun _ _ => 0) early [] rfl (by decide) (by decide)
  have hclosed := closed_meters_rest config ExportSettings.standard
    (some context) 0 (fun _ _ => 0) (early ++ [.meter "a" .close]) later rfl
    (by decide) (by decide)
  have hmade : ((start.run early).2.registry.made[0]?).isSome = true := by
    decide +kernel
  have hhandle : ((start.run early).2.handle? "a").map
      (sameMeter (.made 0)) = some true := by decide +kernel
  have hshown : (s.registry.made[0]?).map (fun meter =>
      (meter.deltaView s.moment).amount?) = some (some 2.0) := by
    decide +kernel
  have hdrained : (s.drained 0 later).length = 1 := by decide +kernel
  -- What follows holds of any run with these facts.
  have hrun := run_append start early [.meter "a" .close]
  clear_value config early later
  obtain ⟨meter, hmeter⟩ := Option.isSome_iff_exists.mp hmade
  obtain ⟨hcloses, hput, -⟩ := hopen 0 meter hmeter
  have hname : (start.run early).2.handle? "a" = some (.made 0) := by
    obtain ⟨handle, hbound, hsame⟩ := Option.map_eq_some_iff.mp hhandle
    cases handle with
    | made reference =>
        obtain rfl := of_decide_eq_true hsame
        exact hbound
    | refused own => cases hsame
  have hmeter : s.registry.made[0]? =
      some (meter.close (start.run early).2.moment) :=
    (congrArg (fun t => t.registry.made[0]?) hrun).trans (hput "a" hname)
  obtain ⟨-, -, hrests⟩ := hclosed 0 _ hmeter
  obtain ⟨after, hafter, -, hview, -⟩ := hrests (hcloses _)
  rw [hmeter, Option.map_some, Option.some.injEq] at hshown
  exact ⟨after, hafter, (congrArg _ hview).trans hshown, hdrained⟩

end Session

end WindowedMetrics
