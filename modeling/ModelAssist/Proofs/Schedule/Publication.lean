import ModelAssist.Proofs.Schedule.History

/-!
# Publications of a schedule

No diagnostics are shown that are out of date: every publication of a run is justified by what
happened before it (`Schedule.Course.Run.justified`), and the versions that are shown of a document
go with the versions that it has (`Schedule.Course.Run.shown_monotone`).
-/

namespace ModelAssist

namespace Schedule

/-- Holds if diagnostics of a version of a document may be shown after some happenings: the document
is at the version, the version is the one that it had when its validation started, the validation
ended with the diagnostics, and nothing superseded it since it started. -/
def Justified (before : List Happening) (around : Surroundings) (uri : String)
    (found : List Diagnostic) (version : Int) : Prop :=
  around.versionOf uri = some version ∧
    ∃ ticket ending earlier started later,
      before = earlier ++ ⟨started, .command (.validate ticket uri version)⟩ :: later ∧
      started.versionOf uri = some version ∧
      ⟨around, .event (.ended ticket uri version ending)⟩ ∈ later ∧
      ending.shown? = some found ∧
      ∀ happening ∈ later, ¬ happening.Supersedes uri

/-- Holds of a validation of a document that has still to end and was not cancelled. -/
def Course.Showing (course : Course) (uri : String) (ticket : Ticket) : Prop :=
  ticket ∉ course.schedule.cancelled ∧ ∃ version, Job.validation ticket uri version ∈ course.jobs

/-- The version of a document that a happening shows diagnostics of. -/
def Happening.shown? (uri : String) (happening : Happening) : Option Int :=
  match happening.deed with
  | .command (.publish other _ version) => if other = uri then version else none
  | _ => none

/-- Holds if a document is open throughout some happenings and its version only grows. -/
def GrowsThroughout (uri : String) (window : List Happening) : Prop :=
  (∀ happening ∈ window, (happening.around.versionOf uri).isSome) ∧
    window.Pairwise fun earlier later =>
      ∀ first ∈ earlier.around.versionOf uri, ∀ second ∈ later.around.versionOf uri, first ≤ second

/-- Diagnostics of a version are shown only when its validation ended with them, was not cancelled,
and the document is still at the version. -/
theorem publish_mem_handle {around : Surroundings} {schedule : Schedule} {event : ScheduleEvent}
    {uri : String} {found : List Diagnostic} {version : Int}
    (published : .publish uri found (some version) ∈ (schedule.handle around event).2) :
    ∃ ticket ending, event = .ended ticket uri version ending ∧ ending.shown? = some found ∧
      ticket ∉ schedule.cancelled ∧ around.versionOf uri = some version := by
  cases event with
  | schedule other seconds => simp [handle, awaitQuiet] at published
  | quiet ticket other => exact (restarts_of_mem_start published).elim
  | scheduleDependents other => simp [handle, awaitDependents] at published
  | dependentsQuiet => exact (restarts_of_mem_startAll published).elim
  | start other => exact (restarts_of_mem_start published).elim
  | close other => simp [handle, Schedule.close] at published
  | shutdown => simp [handle, Schedule.shutdown] at published
  | ended ticket other started ending =>
      obtain ⟨warned, warnings, shown, finishEq, shows⟩ :=
        finish_cases around schedule ticket other started ending
      rw [handle, finishEq] at published
      rcases shows with rfl | ⟨found', rfl, ended, uncancelled, current⟩
      · simp at published
      · have same : uri = other ∧ found = found' ∧ version = started := by
          simpa using published
        obtain ⟨rfl, rfl, rfl⟩ := same
        exact ⟨ticket, ending, rfl, ended, uncancelled, current⟩

/-- The end of a validation supersedes nothing, and nor does what comes with it. -/
theorem not_supersedes_of_ended {around : Surroundings} {schedule : Schedule} {ticket : Ticket}
    {other : String} {version : Int} {ending : ValidationEnd} {happening : Happening}
    (member : happening ∈ recorded around schedule (.ended ticket other version ending))
    (uri : String) : ¬ happening.Supersedes uri := by
  intro supersedes
  rcases List.mem_cons.mp member with rfl | ordered
  · exact supersedes
  · obtain ⟨_, command, commanded, deed⟩ := mem_given ordered
    obtain ⟨warned, warnings, shown, finishEq, shows⟩ :=
      finish_cases around schedule ticket other version ending
    rw [handle, finishEq] at commanded
    rcases List.mem_append.mp commanded with warning | showing
    · obtain ⟨_, _, rfl⟩ := List.mem_map.mp warning
      simp [Happening.Supersedes, deed] at supersedes
    · rcases shows with rfl | ⟨found, rfl, _⟩
      · cases showing
      · rw [List.mem_singleton.mp showing] at deed
        simp [Happening.Supersedes, deed] at supersedes

private theorem split_append {first second earlier later : List Happening} {happening : Happening}
    (split : first ++ second = earlier ++ happening :: later) :
    (∃ rest, first = earlier ++ happening :: rest) ∨
      ∃ middle, earlier = first ++ middle ∧ second = middle ++ happening :: later := by
  rcases List.append_eq_append_iff.mp split with ⟨middle, rfl, rfl⟩ | ⟨rest, rfl, tail⟩
  · exact Or.inr ⟨middle, rfl, rfl⟩
  · cases rest with
    | nil => exact Or.inr ⟨[], by simp, by simpa using tail.symm⟩
    | cons entry rest =>
        obtain ⟨rfl, -⟩ := List.cons.inj tail
        exact Or.inl ⟨rest, rfl⟩

namespace Course

/-- What a step shows is justified by what happened before. -/
theorem Step.justified {around : Surroundings} {before after : Course} {event : ScheduleEvent}
    (step : Step around before event after) {history : List Happening}
    (explained : Explained history before) {middle later : List Happening} {shown : Surroundings}
    {uri : String} {found : List Diagnostic} {version : Int}
    (split : recorded around before.schedule event =
      middle ++ ⟨shown, .command (.publish uri found (some version))⟩ :: later) :
    Justified (history ++ middle) shown uri found version := by
  have published : ⟨shown, .command (.publish uri found (some version))⟩ ∈
      recorded around before.schedule event := by
    rw [split]
    exact List.mem_append_right _ List.mem_cons_self
  have ordered : ⟨shown, .command (.publish uri found (some version))⟩ ∈
      given around (before.schedule.handle around event).2 := by
    simpa [recorded] using published
  obtain ⟨rfl, command, commanded, deed⟩ := mem_given ordered
  rw [← Deed.command.inj deed] at commanded
  obtain ⟨ticket, ending, rfl, ended, uncancelled, current⟩ := publish_mem_handle commanded
  have live : Job.validation ticket uri version ∈ before.jobs := by
    cases step with
    | request asked => exact asked.elim
    | report live reports =>
        cases reports with
        | validation => exact live
  obtain ⟨earlier, started, since, historyEq, startedAt, undisturbed⟩ :=
    explained ticket uri version live
  refine ⟨current, ticket, ending, earlier, started, since ++ middle, by simp [historyEq],
    startedAt, List.mem_append_right _ ?_, ended, ?_⟩
  · -- The event is the first entry of the record, and the publication is a later one.
    cases middle with
    | nil => simp [recorded] at split
    | cons entry rest =>
        obtain ⟨rfl, -⟩ := List.cons.inj split
        exact List.mem_cons_self
  · intro happening member
    rcases List.mem_append.mp member with old | new
    · exact undisturbed uncancelled happening old
    · have noted := List.mem_append_left
        (⟨shown, .command (.publish uri found (some version))⟩ :: later) new
      rw [← split] at noted
      exact not_supersedes_of_ended noted uri

/-- What a run publishes for a version is justified by what happened before. -/
theorem Run.justified {history : List Happening} {course : Course} (run : Run history course)
    {before later : List Happening} {around : Surroundings} {uri : String}
    {found : List Diagnostic} {version : Int}
    (split : history =
      before ++ ⟨around, .command (.publish uri found (some version))⟩ :: later) :
    Justified before around uri found version := by
  induction run generalizing before later with
  | initial => simp at split
  | step run step ih =>
      rcases split_append split with ⟨rest, historyEq⟩ | ⟨middle, rfl, recordedEq⟩
      · exact ih historyEq
      · exact step.justified run.explained recordedEq
  | lose run cancelled uri version ih => exact ih split

/-- The versions that are shown of a document are the ones that it has. -/
theorem Run.shown_current {history : List Happening} {course : Course} (run : Run history course)
    {happening : Happening} (member : happening ∈ history) {uri : String} {version : Int}
    (shown : happening.shown? uri = some version) :
    happening.around.versionOf uri = some version := by
  obtain ⟨before, later, split⟩ := List.append_of_mem member
  obtain ⟨around, deed⟩ := happening
  unfold Happening.shown? at shown
  split at shown
  · next other found number published =>
      simp only at published
      by_cases same : other = uri
      · subst same
        simp only [↓reduceIte] at shown
        rw [published, shown] at split
        exact (run.justified split).1
      · simp [same] at shown
  · cases shown

/-- While a document is open and its version only grows, the versions that are shown never go
back. -/
theorem Run.shown_monotone {history : List Happening} {course : Course} (run : Run history course)
    {uri : String} {window : List Happening} (part : window.IsInfix history)
    (grows : GrowsThroughout uri window) :
    (window.filterMap (Happening.shown? uri)).Pairwise (· ≤ ·) := by
  rw [List.pairwise_filterMap]
  refine List.Pairwise.imp_of_mem ?_ grows.2
  intro earlier later first second ordered version shown version' shown'
  exact ordered version (run.shown_current (part.subset first) shown) version'
    (run.shown_current (part.subset second) shown')

/-- **No diagnostics are shown that are out of date.**  Whatever happens in whatever order: the
diagnostics of a version are shown only while the document is at the version, which is the one that
its validation started with, and only if nothing superseded the validation since.  At any time a
document has at most one validation that was not cancelled and has still to end, and this is the one
that is remembered for it.  While the document is open and its version only grows, the versions that
are shown never go back. -/
theorem Run.publications_current {history : List Happening} {course : Course}
    (run : Run history course) :
    (∀ before around uri found version later,
      history = before ++ ⟨around, .command (.publish uri found (some version))⟩ :: later →
        Justified before around uri found version) ∧
    (∀ uri ticket,
      course.schedule.running.get? uri = some ticket ↔ course.Showing uri ticket) ∧
    (∀ uri first second, course.Showing uri first → course.Showing uri second → first = second) ∧
    (∀ uri window, window.IsInfix history → GrowsThroughout uri window →
      (window.filterMap (Happening.shown? uri)).Pairwise (· ≤ ·)) := by
  have remembered := run.sound.running_iff
  refine ⟨fun _ _ _ _ _ _ split => run.justified split, remembered, ?_,
    fun uri window part grows => run.shown_monotone part grows⟩
  intro uri first second showing showing'
  have current := (remembered uri first).mpr showing
  have current' := (remembered uri second).mpr showing'
  exact Option.some.inj (current.symm.trans current')

private def alone (version : Int) : Surroundings :=
  ⟨fun uri => if uri = "a" then some version else none, fun _ => []⟩

/-- Two validations of one document, of which the first is superseded and ends first. -/
private def race : List Happening :=
  [⟨alone 1, .event (.start "a")⟩,
    ⟨alone 1, .command (.validate 0 "a" 1)⟩,
    ⟨alone 2, .event (.start "a")⟩,
    ⟨alone 2, .command (.cancel 0 supersededReason)⟩,
    ⟨alone 2, .command (.validate 1 "a" 2)⟩,
    ⟨alone 2, .event (.ended 0 "a" 1 .broken)⟩,
    ⟨alone 2, .event (.ended 1 "a" 2 (.diagnostics []))⟩]

/-- Of two validations of a document only the newer one is shown. -/
theorem publications_current_race :
    (∃ course, Run (race ++ [⟨alone 2, .command (.publish "a" [] (some 2))⟩]) course) ∧
      Justified race (alone 2) "a" [] 2 := by
  let first := (initial 0.3 0.5).react (alone 1) (.start "a")
  let second := first.react (alone 2) (.start "a")
  let third := (second.drop (.validation 0 "a" 1)).react (alone 2) (.ended 0 "a" 1 .broken)
  have starts : Step (alone 1) (initial 0.3 0.5) (.start "a") first := .request _ trivial
  have restarts : Step (alone 2) first (.start "a") second := .request _ trivial
  have outdated : Step (alone 2) second (.ended 0 "a" 1 .broken) third :=
    .report _ List.mem_cons_self (.validation 0 "a" 1 .broken)
  have current : Step (alone 2) third (.ended 1 "a" 2 (.diagnostics [])) _ :=
    .report _ List.mem_cons_self (.validation 1 "a" 2 (.diagnostics []))
  have run := ((((Run.initial 0.3 0.5).step starts).step restarts).step outdated).step current
  exact ⟨⟨_, run⟩, run.publications_current.1 race _ _ _ _ [] rfl⟩

end Course

end Schedule

end ModelAssist
