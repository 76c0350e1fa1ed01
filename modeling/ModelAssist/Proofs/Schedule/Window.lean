import Mathlib.Data.List.Sort
import Mathlib.Data.String.Basic
import ModelAssist.Proofs.Schedule.History
import ModelAssist.Proofs.Schedule.Start

/-!
# The shared quiet period

Every change that others may depend on restarts one quiet period, and at its end the documents that
depend on a changed one are validated.  A change waits from its report to the next end of the
period, or to a shutdown (`Schedule.Awaited`), and the changed documents that a schedule remembers
are at all times those that wait.  So no change is lost and none is handled twice, whenever it comes
(`Schedule.Course.Run.handles_changes`).
-/

namespace ModelAssist

/-- Holds of the events that end the wait of the changed documents. -/
def ScheduleEvent.EndsWindow : ScheduleEvent → Prop
  | .dependentsQuiet | .shutdown => True
  | _ => False

namespace Schedule

/-- Holds of the shared quiet periods. -/
def Job.IsShared : Job → Prop
  | .dependentsQuiet _ => True
  | _ => False

/-- Holds of what ends the wait of the changed documents. -/
def Happening.EndsWindow (happening : Happening) : Prop :=
  ∃ event : ScheduleEvent, happening.deed = .event event ∧ event.EndsWindow

/-- Holds if a change of a document was reported in a history, and since then the shared quiet
period neither ended nor was dropped. -/
def Awaited (uri : String) (history : List Happening) : Prop :=
  ∃ earlier around later,
    history = earlier ++ ⟨around, .event (.scheduleDependents uri)⟩ :: later ∧
      ∀ happening ∈ later, ¬ happening.EndsWindow

/-! ## The changed documents -/

section

variable {around : Surroundings} {schedule : Schedule} {event : ScheduleEvent} {uri : String}

/-- A happening ends the window exactly if its event does. -/
theorem Happening.endsWindow_iff : (Happening.mk around (.event event)).EndsWindow ↔
    event.EndsWindow := by
  refine ⟨?_, fun ends => ⟨event, rfl, ends⟩⟩
  rintro ⟨_, ⟨⟩, ends⟩
  exact ends

/-- Commands do not end a window. -/
theorem not_endsWindow_of_mem_given {commands : List ScheduleCommand} {happening : Happening}
    (member : happening ∈ given around commands) : ¬ happening.EndsWindow := by
  obtain ⟨-, command, -, commanded⟩ := mem_given member
  rintro ⟨event, evented, -⟩
  rw [commanded] at evented
  cases evented

/-- Only what happens last decides about older changes. -/
theorem awaited_append_iff {history further : List Happening} :
    Awaited uri (history ++ further) ↔
      Awaited uri further ∨
        Awaited uri history ∧ ∀ happening ∈ further, ¬ happening.EndsWindow := by
  constructor
  · rintro ⟨earlier, around, later, split, undisturbed⟩
    rcases List.append_eq_append_iff.mp split with
      ⟨rest, rfl, inFurther⟩ | ⟨rest, inHistory, tail⟩
    · exact .inl ⟨rest, around, later, inFurther, undisturbed⟩
    · cases rest with
      | nil =>
          rw [List.nil_append] at tail
          exact .inl ⟨[], around, later, tail.symm, undisturbed⟩
      | cons first rest =>
          obtain ⟨rfl, rfl⟩ := List.cons.inj tail
          refine .inr ⟨⟨earlier, around, rest, inHistory, ?_⟩, ?_⟩
          · exact fun happening member =>
              undisturbed happening (List.mem_append_left _ member)
          · exact fun happening member =>
              undisturbed happening (List.mem_append_right _ member)
  · rintro (⟨earlier, around, later, rfl, undisturbed⟩ |
      ⟨⟨earlier, around, later, rfl, undisturbed⟩, kept⟩)
    · exact ⟨history ++ earlier, around, later, by simp, undisturbed⟩
    · refine ⟨earlier, around, later ++ further, by simp, ?_⟩
      intro happening member
      rcases List.mem_append.mp member with old | new
      · exact undisturbed happening old
      · exact kept happening new

/-- Among what an event adds to the history, only the awaiting of dependents awaits a document. -/
theorem awaited_recorded_iff :
    Awaited uri (recorded around schedule event) ↔ event = .scheduleDependents uri := by
  constructor
  · rintro ⟨earlier, moment, later, split, -⟩
    have member : ⟨moment, .event (.scheduleDependents uri)⟩ ∈ recorded around schedule event := by
      rw [split]
      exact List.mem_append_right _ List.mem_cons_self
    rcases List.mem_cons.mp member with same | ordered
    · exact (Deed.event.inj (Happening.mk.inj same).2).symm
    · obtain ⟨-, command, -, commanded⟩ := mem_given ordered
      cases commanded
  · rintro rfl
    exact ⟨[], around, _, rfl, fun happening => not_endsWindow_of_mem_given⟩

/-- What an event adds to the history ends the window exactly if the event does. -/
theorem endsWindow_recorded_iff :
    (∀ happening ∈ recorded around schedule event, ¬ happening.EndsWindow) ↔
      ¬ event.EndsWindow := by
  rw [recorded, List.forall_mem_cons, Happening.endsWindow_iff, and_iff_left_iff_imp]
  exact fun _ happening => not_endsWindow_of_mem_given

/-- The changed documents and the shared period of a schedule. -/
def window (schedule : Schedule) : List String × Option Ticket :=
  (schedule.changed, schedule.dependentsTimer)

/-- The window depends on the plans alone. -/
theorem window_eq_of_plans {before after : Schedule} (same : after.plans = before.plans) :
    after.window = before.window :=
  congrArg (·.2) same

/-- An event restarts the shared period for one more document, or it ends the period for all, or it
leaves both as they are. -/
theorem window_handle (around : Surroundings) (schedule : Schedule) (event : ScheduleEvent) :
    (∃ uri, event = .scheduleDependents uri ∧
        (schedule.handle around event).1.dependentsTimer = some schedule.nextTicket ∧
        ∀ other, other ∈ (schedule.handle around event).1.changed ↔
          other = uri ∨ other ∈ schedule.changed) ∨
      (event.EndsWindow ∧ (schedule.handle around event).1.window = ([], none)) ∨
      ((∀ uri, event ≠ .scheduleDependents uri) ∧ ¬ event.EndsWindow ∧
        (schedule.handle around event).1.window = schedule.window) := by
  cases event with
  | scheduleDependents uri =>
      refine .inl ⟨uri, rfl, rfl, fun other => ?_⟩
      simp only [handle, awaitDependents]
      split
      · next known =>
          rw [List.contains_iff_mem] at known
          exact (or_iff_right_of_imp fun same => same ▸ known).symm
      · rw [List.mem_append, List.mem_singleton, or_comm]
  | dependentsQuiet =>
      exact .inr (.inl ⟨trivial, window_eq_of_plans (plans_startAll around _ _)⟩)
  | shutdown => exact .inr (.inl ⟨trivial, rfl⟩)
  | schedule uri seconds => exact .inr (.inr ⟨by simp, not_false, rfl⟩)
  | quiet ticket uri =>
      have kept : (schedule.leaveQuiet ticket uri).window = schedule.window := by
        unfold leaveQuiet
        split <;> rfl
      exact .inr (.inr ⟨by simp, not_false,
        (window_eq_of_plans (plans_start around _ uri)).trans kept⟩)
  | start uri =>
      exact .inr (.inr ⟨by simp, not_false, window_eq_of_plans (plans_start around schedule uri)⟩)
  | ended ticket uri version ending =>
      exact .inr (.inr ⟨by simp, not_false,
        window_eq_of_plans (plans_finish around schedule ticket uri version ending)⟩)
  | close uri => exact .inr (.inr ⟨by simp, not_false, rfl⟩)

/-- An event adds the document whose change it reports, or forgets them all. -/
theorem mem_changed_handle :
    uri ∈ (schedule.handle around event).1.changed ↔
      event = .scheduleDependents uri ∨ uri ∈ schedule.changed ∧ ¬ event.EndsWindow := by
  rcases window_handle around schedule event with
    ⟨other, rfl, -, changed⟩ | ⟨ends, window⟩ | ⟨different, goesOn, window⟩
  · rw [changed, ScheduleEvent.scheduleDependents.injEq, eq_comm]
    exact or_congr_right (and_iff_left not_false).symm
  · have emptied : (schedule.handle around event).1.changed = [] := congrArg Prod.fst window
    rw [emptied]
    refine ⟨fun member => (List.not_mem_nil member).elim, ?_⟩
    rintro (rfl | ⟨-, goesOn⟩)
    · exact ends.elim
    · exact (goesOn ends).elim
  · have kept : (schedule.handle around event).1.changed = schedule.changed :=
      congrArg Prod.fst window
    rw [kept, or_iff_right (different uri), and_iff_left goesOn]

/-- Holds if the shared period goes on as long as a document has changed. -/
def KeepsWindow (schedule : Schedule) : Prop :=
  schedule.changed ≠ [] → schedule.dependentsTimer.isSome

/-- Every event keeps a timer running while the window is not empty. -/
theorem keepsWindow_handle (keeps : schedule.KeepsWindow) :
    (schedule.handle around event).1.KeepsWindow := by
  intro some_
  rcases window_handle around schedule event with
    ⟨other, -, timer, -⟩ | ⟨-, window⟩ | ⟨-, -, window⟩
  · rw [timer]
    rfl
  · exact (some_ (congrArg Prod.fst window)).elim
  · have kept : (schedule.handle around event).1.dependentsTimer = schedule.dependentsTimer :=
      congrArg Prod.snd window
    rw [kept]
    exact keeps fun empty => some_ ((congrArg Prod.fst window).trans empty)

/-! ## The documents that depend on them -/

/-- No document is affected twice. -/
theorem nodup_affected (around : Surroundings) (changed : List String) :
    (affected around changed).Nodup := by
  have collected : ∀ (found kept : List String), kept.Nodup →
      (found.foldl
        (fun kept uri => if kept.contains uri || changed.contains uri then kept
          else kept ++ [uri]) kept).Nodup := by
    intro found
    induction found with
    | nil => exact fun kept distinct => distinct
    | cons first rest ih =>
        intro kept distinct
        rw [List.foldl_cons]
        split
        · exact ih kept distinct
        · next fresh =>
            simp only [Bool.or_eq_true, List.contains_iff_mem, not_or] at fresh
            refine ih _ (List.nodup_append.mpr ⟨distinct, List.nodup_singleton first, ?_⟩)
            rintro uri member _ last rfl
            exact fresh.1 (List.mem_singleton.mp last ▸ member)
  exact (List.mergeSort_perm _ _).nodup_iff.mpr (collected _ [] List.nodup_nil)

/-- They are asked for once, in ascending order. -/
theorem pairwise_affected (around : Surroundings) (changed : List String) :
    (affected around changed).Pairwise (· < ·) := by
  have ascending : (affected around changed).Pairwise fun left right => !decide (right < left) := by
    refine List.pairwise_mergeSort ?_ ?_ _
    · intro first second third
      simp only [Bool.not_eq_true', decide_eq_false_iff_not, not_lt]
      exact le_trans
    · intro first second
      simp only [Bool.or_eq_true, Bool.not_eq_true', decide_eq_false_iff_not, not_lt]
      exact le_total first second
  refine (ascending.and (nodup_affected around changed)).imp fun ordered => ?_
  simp only [Bool.not_eq_true', decide_eq_false_iff_not, not_lt] at ordered
  exact lt_of_le_of_ne ordered.1 ordered.2

end

namespace Course

/-- **One step adds the change that it reports, or ends the wait of all.** -/
theorem Step.mem_changed_iff {around : Surroundings} {before after : Course}
    {event : ScheduleEvent} (step : Step around before event after) (uri : String) :
    uri ∈ after.schedule.changed ↔
      event = .scheduleDependents uri ∨ uri ∈ before.schedule.changed ∧ ¬ event.EndsWindow := by
  cases step with
  | request asked => exact mem_changed_handle
  | report live reports => exact mem_changed_handle

/-- The changed documents that a schedule remembers are those that wait. -/
theorem Run.mem_changed_iff {history : List Happening} {course : Course}
    (run : Run history course) (uri : String) :
    uri ∈ course.schedule.changed ↔ Awaited uri history := by
  induction run with
  | initial quietSeconds dependentSeconds =>
      refine ⟨fun member => (List.not_mem_nil member).elim, ?_⟩
      rintro ⟨earlier, around, later, split, -⟩
      cases earlier <;> cases split
  | step run step ih =>
      rw [step.mem_changed_iff, awaited_append_iff, awaited_recorded_iff, endsWindow_recorded_iff,
        ih]
  | lose run cancelled uri version ih => exact ih

/-- No two shared quiet periods have still to end. -/
theorem Sound.pairwise_isShared {course : Course} (sound : course.Sound) :
    course.jobs.Pairwise fun first second => ¬ (first.IsShared ∧ second.IsShared) := by
  refine sound.nodup_jobs.imp_of_mem fun {first second} firstLive secondLive different => ?_
  rintro ⟨firstShared, secondShared⟩
  cases first with
  | dependentsQuiet ticket =>
      cases second with
      | dependentsQuiet other =>
          have remembered := (sound.timer_iff ticket).mpr firstLive
          have other_ := (sound.timer_iff other).mpr secondLive
          rw [remembered] at other_
          exact different (congrArg _ (Option.some.inj other_))
      | quiet _ _ => exact secondShared
      | validation _ _ _ => exact secondShared
  | quiet _ _ => exact firstShared
  | validation _ _ _ => exact firstShared

/-- While a document has changed, a shared quiet period has still to end. -/
theorem Run.keepsWindow {history : List Happening} {course : Course} (run : Run history course) :
    course.schedule.KeepsWindow := by
  induction run with
  | initial quietSeconds dependentSeconds => exact fun some_ => (some_ rfl).elim
  | step run step ih =>
      cases step with
      | request asked => exact keepsWindow_handle ih
      | report live reports => exact keepsWindow_handle ih
  | lose run cancelled uri version ih => exact ih

/-- The course after a shared quiet period ended, before anything is started for it. -/
def endWindow (course : Course) (ticket : Ticket) : Course :=
  ⟨{ course.schedule with changed := [], dependentsTimer := none },
    course.jobs.erase (.dependentsQuiet ticket)⟩

/-- The end of a shared period starts a validation of every affected document, in their order. -/
theorem Step.ends_window {around : Surroundings} {before after : Course}
    (step : Step around before .dependentsQuiet after) :
    ∃ ticket, Job.dependentsQuiet ticket ∈ before.jobs ∧
      after = (before.endWindow ticket).adopt
        (startAll around (before.endWindow ticket).schedule
          (affected around before.schedule.changed)) := by
  cases step with
  | request asked => exact asked.elim
  | report live reports =>
      cases reports with
      | dependentsQuiet ticket => exact ⟨ticket, live, rfl⟩

/-- **No change is lost by the shared period.**  At most one shared period has still to end, and one
has while a change waits.  When it ends, the changed documents are exactly those whose change was
reported after the end of the period before, whenever that was; and a validation is started, once
each and in ascending order, of the documents that depend on one of them and did not change. -/
theorem Run.handles_changes {history : List Happening} {course : Course}
    (run : Run history course) :
    (course.jobs.Pairwise fun first second => ¬ (first.IsShared ∧ second.IsShared)) ∧
      (∀ uri, Awaited uri history → ∃ job ∈ course.jobs, job.IsShared) ∧
      ∀ around after, Step around course .dependentsQuiet after →
        (∀ uri, uri ∈ course.schedule.changed ↔ Awaited uri history) ∧
          ∃ ticket uris, Job.dependentsQuiet ticket ∈ course.jobs ∧
            uris.Pairwise (· < ·) ∧
            (∀ uri, uri ∈ uris ↔
              (∃ other ∈ course.schedule.changed, uri ∈ around.dependentsOf other) ∧
                uri ∉ course.schedule.changed) ∧
            after = (course.endWindow ticket).adopt
              (startAll around (course.endWindow ticket).schedule uris) := by
  refine ⟨run.sound.pairwise_isShared, fun uri awaited => ?_, fun around after step => ?_⟩
  · have changed := List.ne_nil_of_mem ((run.mem_changed_iff uri).mpr awaited)
    obtain ⟨ticket, timer⟩ := Option.isSome_iff_exists.mp (run.keepsWindow changed)
    exact ⟨_, (run.sound.timer_iff ticket).mp timer, trivial⟩
  · obtain ⟨ticket, live, ended⟩ := step.ends_window
    exact ⟨run.mem_changed_iff, ticket, _, live, pairwise_affected around _,
      fun uri => mem_affected, ended⟩

/-- Two documents of which one depends on the other, and two that depend on them. -/
private def familyAround : Surroundings where
  versionOf _ := some 1
  dependentsOf uri := if uri = "base" then ["user", "middle", "reader"] else ["reader"]

/-- The course after both documents were reported in one shared period. -/
private def familyCourse : Course :=
  ((initial 1 2).react familyAround (.scheduleDependents "middle")).react familyAround
    (.scheduleDependents "base")

/-- What happened in it. -/
private def familyHistory : List Happening :=
  [] ++ recorded familyAround (initial 1 2).schedule (.scheduleDependents "middle") ++
    recorded familyAround
      ((initial 1 2).react familyAround (.scheduleDependents "middle")).schedule
      (.scheduleDependents "base")

private theorem run_family : Run familyHistory familyCourse :=
  .step (.step (.initial 1 2) (.request _ trivial)) (.request _ trivial)

/-- A document that depends on a changed one and changed itself is not validated anew. -/
theorem Run.handles_changes_family :
    Run familyHistory familyCourse ∧ ∃ after,
      Step familyAround familyCourse .dependentsQuiet after ∧
        (∀ uri, uri ∈ ["middle", "base"] ↔ Awaited uri familyHistory) ∧
        ∃ ticket, after = (familyCourse.endWindow ticket).adopt
          (startAll familyAround (familyCourse.endWindow ticket).schedule ["reader", "user"]) := by
  have step : Step familyAround familyCourse .dependentsQuiet
      ((familyCourse.drop (.dependentsQuiet 1)).react familyAround .dependentsQuiet) :=
    .report familyCourse (by decide : Job.dependentsQuiet 1 ∈ familyCourse.jobs)
      (.dependentsQuiet 1)
  obtain ⟨-, -, ends⟩ := run_family.handles_changes
  obtain ⟨awaited, ticket, uris, -, ascending, affected, after⟩ := ends familyAround _ step
  refine ⟨run_family, _, step, awaited, ticket, ?_⟩
  have same : uris = ["reader", "user"] := by
    refine ascending.eq_of_mem_iff (by decide) fun uri => ?_
    rw [affected]
    change (∃ other ∈ ["middle", "base"], uri ∈ familyAround.dependentsOf other) ∧
      uri ∉ ["middle", "base"] ↔ _
    simp only [List.mem_cons, List.not_mem_nil, or_false, familyAround, exists_eq_or_imp,
      String.reduceEq, ↓reduceIte, ↓existsAndEq, true_and, not_or]
    grind
  rw [← same]
  exact after

end Course

end Schedule

end ModelAssist
