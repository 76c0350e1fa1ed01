import Mathlib.Data.List.Nodup
import ModelAssist.Proofs.Concurrency.Plan
import ModelAssist.Proofs.Validator.Launcher

/-!
# Tasks that keep to the moves of launches

A process obeys if each of its changes of the state is a move of the launcher or leaves the launcher
alone, and if it ends only launches that it owes the end of: a launch is owed by the task that began
it, which may hand it on to a task that it starts.  No launch is owed twice, so however the turns of
such tasks follow each other, their moves are legal (`Agenda.Tracks.take`).
-/

namespace ModelAssist

open Launcher (after Legal)

/-- The launch that a request begins. -/
def LaunchStep.begun : LaunchStep → List LaunchId
  | .begin launch => [launch]
  | .ready | .await _ => []

/-- What a task that owes the ends of some launches may do to a launcher, and what it owes then. -/
inductive Launcher.Permits (launcher : Launcher) (owed : List LaunchId) :
    List LaunchMove → Launcher → List LaunchId → Prop
  | nothing : Permits launcher owed [] launcher owed
  | request : Permits launcher owed [.request] launcher.request.1
      (launcher.request.2.begun ++ owed)
  | finish {launch : LaunchId} (owes : launch ∈ owed) (outcome : Except String Unit) :
      Permits launcher owed [.finish launch outcome] (launcher.finish launch outcome)
        (owed.erase launch)
  | collect (launch : LaunchId) :
      Permits launcher owed [.collect launch] (launcher.collect launch).1 owed

/-- Holds if what tasks owe is in flight, and if no two of them owe the end of one launch. -/
structure Launcher.Apportioned (launcher : Launcher) (owed : TaskId → List LaunchId) : Prop where
  flying : ∀ task, ∀ launch ∈ owed task, launcher.launches[launch]? = some .inFlight
  apart : ∀ first second launch, launch ∈ owed first → launch ∈ owed second → first = second
  once : ∀ task, (owed task).Nodup

namespace Launcher.Apportioned

variable {launcher : Launcher} {owed : TaskId → List LaunchId} {task : TaskId}

/-- The launches stay apportioned while every one that is owed is in flight. -/
theorem change (apportioned : launcher.Apportioned owed) {other : Launcher}
    (flying : ∀ task, ∀ launch ∈ owed task, other.launches[launch]? = some .inFlight) :
    other.Apportioned owed :=
  ⟨flying, apportioned.apart, apportioned.once⟩

/-- A task may owe other launches that are in flight and that no other task owes. -/
theorem update (apportioned : launcher.Apportioned owed) {owed' : List LaunchId}
    (once : owed'.Nodup)
    (flying : ∀ launch ∈ owed', launcher.launches[launch]? = some .inFlight)
    (apart : ∀ launch ∈ owed', ∀ other, other ≠ task → launch ∉ owed other) :
    launcher.Apportioned (Function.update owed task owed') := by
  refine ⟨?_, ?_, ?_⟩
  · intro other launch owes
    rw [Function.update_apply] at owes
    split at owes
    · exact flying launch owes
    · exact apportioned.flying other launch owes
  · intro first second launch owes owes'
    rw [Function.update_apply] at owes owes'
    by_cases own : first = task <;> by_cases own' : second = task
    · rw [own, own']
    · rw [if_pos own] at owes
      rw [if_neg own'] at owes'
      exact absurd owes' (apart launch owes second own')
    · rw [if_neg own] at owes
      rw [if_pos own'] at owes'
      exact absurd owes (apart launch owes' first own)
    · rw [if_neg own] at owes
      rw [if_neg own'] at owes'
      exact apportioned.apart first second launch owes owes'
  · intro other
    rw [Function.update_apply]
    split
    · exact once
    · exact apportioned.once other

/-- A launch that a request begins is owed by the task that asked. -/
theorem request (apportioned : launcher.Apportioned owed) :
    launcher.request.1.Apportioned
      (Function.update owed task (launcher.request.2.begun ++ owed task)) := by
  rcases launcher.request_cases with ⟨same, begins⟩ | ⟨-, -, begun⟩
  · have nothing : launcher.request.2.begun = [] := by
      cases step : launcher.request.2 with
      | begin launch => exact absurd step (begins launch)
      | ready => rfl
      | await launch => rfl
    rw [same, nothing, List.nil_append, Function.update_eq_self]
    exact apportioned
  · have new : ∀ task, launcher.launches.length ∉ owed task := by
      intro task owes
      have bound := (List.getElem?_eq_some_iff.mp (apportioned.flying task _ owes)).1
      exact absurd bound (Nat.lt_irrefl _)
    have flying : ∀ task, ∀ launch ∈ owed task,
        (launcher.launches ++ [.inFlight])[launch]? = some .inFlight := by
      intro task launch owes
      have flying := apportioned.flying task launch owes
      rw [List.getElem?_append_left (List.getElem?_eq_some_iff.mp flying).1]
      exact flying
    rw [begun]
    refine (apportioned.change flying).update ?_ ?_ ?_
    · exact List.nodup_cons.mpr ⟨new task, apportioned.once task⟩
    · intro launch owes
      rcases List.mem_cons.mp owes with rfl | owes
      · simp
      · exact flying task launch owes
    · intro launch owes other different owes'
      rcases List.mem_cons.mp owes with rfl | owes
      · exact new other owes'
      · exact different (apportioned.apart other task launch owes' owes)

/-- A launch that has finished is no longer owed. -/
theorem finish (apportioned : launcher.Apportioned owed) {launch : LaunchId}
    (owes : launch ∈ owed task) (outcome : Except String Unit) :
    (launcher.finish launch outcome).Apportioned
      (Function.update owed task ((owed task).erase launch)) := by
  have less : launcher.Apportioned (Function.update owed task ((owed task).erase launch)) := by
    refine apportioned.update ((apportioned.once task).erase launch) ?_ ?_
    · intro other kept
      exact apportioned.flying task other (List.mem_of_mem_erase kept)
    · intro other kept second different kept'
      exact different (apportioned.apart second task other kept' (List.mem_of_mem_erase kept))
  refine less.change ?_
  intro other kept owes'
  have different : launch ≠ kept := by
    rintro rfl
    rw [Function.update_apply] at owes'
    split at owes'
    · exact (apportioned.once task).not_mem_erase owes'
    · next elsewhere => exact elsewhere (apportioned.apart other task launch owes' owes)
  rw [finish_eq, List.getElem?_set_ne different]
  exact less.flying other kept owes'

/-- Collecting a launch leaves the others apportioned. -/
theorem collect (apportioned : launcher.Apportioned owed) (launch : LaunchId) :
    (launcher.collect launch).1.Apportioned owed := by
  rcases launcher.collect_cases launch with same | ⟨-, forgotten⟩
  · rw [same]
    exact apportioned
  · rw [forgotten]
    exact apportioned.change apportioned.flying

/-- A task may hand on a part of what it owes. -/
theorem share (apportioned : launcher.Apportioned owed) (heir : TaskId)
    {given kept : List LaunchId} (shared : (owed task).Perm (given ++ kept)) :
    launcher.Apportioned (Function.update (Function.update owed task kept) heir given) := by
  obtain ⟨givenOnce, keptOnce, disjoint⟩ :=
    List.nodup_append.mp (shared.nodup_iff.mp (apportioned.once task))
  have owesKept : ∀ launch ∈ kept, launch ∈ owed task :=
    fun launch owes => shared.mem_iff.mpr (List.mem_append_right given owes)
  have owesGiven : ∀ launch ∈ given, launch ∈ owed task :=
    fun launch owes => shared.mem_iff.mpr (List.mem_append_left kept owes)
  refine (apportioned.update keptOnce ?_ ?_).update givenOnce ?_ ?_
  · exact fun launch owes => apportioned.flying task launch (owesKept launch owes)
  · intro launch owes other elsewhere owes'
    exact elsewhere (apportioned.apart other task launch owes' (owesKept launch owes))
  · exact fun launch owes => apportioned.flying task launch (owesGiven launch owes)
  · intro launch owes other _ owes'
    rw [Function.update_apply] at owes'
    split at owes'
    · exact disjoint launch owes launch owes' rfl
    · next elsewhere =>
        exact elsewhere (apportioned.apart other task launch owes' (owesGiven launch owes))

end Launcher.Apportioned

variable {State Result : Type} (launcherOf : State → Launcher)

/-- Holds of a process that does to the launcher what is permitted to a task that owes the ends of
some launches, now in the given state and after each wait in any state. -/
def Process.Obeys : Process State Result → List LaunchId → State → Prop
  | .finish _, _, _ => True
  | .look next, owed, state => (next state).Obeys owed state
  | .change update next, owed, state =>
    ∃ moves owed', (launcherOf state).Permits owed moves (launcherOf (update state)) owed' ∧
      next.Obeys owed' (update state)
  | .clock next, owed, state => ∀ now, (next now).Obeys owed state
  | .pause next, owed, _ | .sleep _ next, owed, _ | .awaitAny _ next, owed, _
  | .awaitCancel _ next, owed, _ => ∀ wake state, (next wake).Obeys owed state
  | .start child next, owed, state =>
    ∃ given kept, owed.Perm (given ++ kept) ∧ (∀ later, child.Obeys given later) ∧
      ∀ task, (next task).Obeys kept state
  | .interrupt _ next, owed, state | .cancel _ _ next, owed, state
  | .cancelAfter _ _ _ next, owed, state => next.Obeys owed state
  | .ended _ next, owed, state => ∀ result, (next result).Obeys owed state
  | .makeToken next, owed, state => ∀ token, (next token).Obeys owed state
  | .cancelled _ next, owed, state => ∀ reason, (next reason).Obeys owed state
  | .setDeadline _ next, owed, state => ∀ deadline, (next deadline).Obeys owed state
  | .clearDeadline _ next, owed, state => ∀ passed, (next passed).Obeys owed state

namespace Agenda

/-- Holds if a history tells what the tasks of an agenda did to the launcher, and if they obey.  One
task may be carrying on and is then left out. -/
structure Tracks (busy : Option TaskId) (agenda : Agenda State Result)
    (history : List LaunchMove) (owed : TaskId → List LaunchId) : Prop where
  legal : Legal history
  launcher_eq : launcherOf agenda.state = after history
  obeys : ∀ task next, busy ≠ some task → agenda.plan task = some next →
    ∀ wake state, (next wake).Obeys launcherOf (owed task) state
  apportioned : (after history).Apportioned owed

namespace Tracks

variable {launcherOf} {busy : Option TaskId} {agenda : Agenda State Result}
  {history : List LaunchMove} {owed : TaskId → List LaunchId} {task : TaskId}

/-- Only the state and the plans matter. -/
theorem congr (tracks : Tracks launcherOf busy agenda history owed) {other : Agenda State Result}
    (state : other.state = agenda.state) (plan : other.plan = agenda.plan) :
    Tracks launcherOf busy other history owed where
  legal := tracks.legal
  launcher_eq := state ▸ tracks.launcher_eq
  obeys := plan ▸ tracks.obeys
  apportioned := tracks.apportioned

/-- A task that is entered is tracked along. -/
theorem enter (tracks : Tracks launcherOf none agenda history owed) (task : TaskId) :
    Tracks launcherOf (some task) agenda history owed :=
  { tracks with obeys := fun other next _ => tracks.obeys other next (Option.some_ne_none _).symm }

/-- A task that was busy gets a plan that obeys. -/
theorem leave (tracks : Tracks launcherOf (some task) agenda history owed)
    {other : Agenda State Result} (plan? : Option (Wake → Process State Result))
    (state : other.state = agenda.state)
    (plan : other.plan = Function.update agenda.plan task plan?)
    (obeys : ∀ next, plan? = some next → ∀ wake state,
      (next wake).Obeys launcherOf (owed task) state) :
    Tracks launcherOf none other history owed where
  legal := tracks.legal
  launcher_eq := state ▸ tracks.launcher_eq
  obeys := by
    intro next following _ planned
    rw [plan, Function.update_apply] at planned
    split at planned
    · next own => exact own ▸ obeys following planned
    · next different =>
        exact tracks.obeys next following
          (fun same => different (Option.some.inj same).symm) planned
  apportioned := tracks.apportioned

/-- A task that stops with its next plan leaves everything tracked. -/
theorem stop {other : Agenda State Result} {next : Wake → Process State Result}
    (tracks : Tracks launcherOf (some task) agenda history owed)
    (state : other.state = agenda.state)
    (plan : other.plan = Function.update agenda.plan task (some next))
    (obeys : ∀ wake state, (next wake).Obeys launcherOf (owed task) state) :
    Tracks launcherOf none other history owed := by
  refine tracks.leave (some next) state plan ?_
  rintro _ ⟨⟩
  exact obeys

/-- A permitted change is a legal move. -/
theorem permit (tracks : Tracks launcherOf (some task) agenda history owed) {state : State}
    {moves : List LaunchMove} {owed' : List LaunchId}
    (permits : (launcherOf agenda.state).Permits (owed task) moves (launcherOf state) owed') :
    Tracks launcherOf (some task) { agenda with state } (moves ++ history)
      (Function.update owed task owed') := by
  have obeys : ∀ other next, some task ≠ some other → agenda.plan other = some next →
      ∀ wake state, (next wake).Obeys launcherOf (Function.update owed task owed' other) state := by
    intro other next different planned
    rw [Function.update_of_ne fun same => different (congrArg some same.symm)]
    exact tracks.obeys other next different planned
  rw [tracks.launcher_eq] at permits
  generalize now : launcherOf state = launcher at permits
  have apportioned := tracks.apportioned
  cases permits with
  | nothing =>
      refine ⟨tracks.legal, now, obeys, ?_⟩
      rw [Function.update_eq_self]
      exact apportioned
  | request => exact ⟨⟨nofun, tracks.legal⟩, now, obeys, apportioned.request⟩
  | @finish launch owes outcome =>
      refine ⟨⟨?_, tracks.legal⟩, now, obeys, apportioned.finish owes outcome⟩
      rintro _ _ ⟨⟩
      exact apportioned.flying task launch owes
  | collect launch =>
      refine ⟨⟨nofun, tracks.legal⟩, now, obeys, ?_⟩
      rw [Function.update_eq_self]
      exact apportioned.collect launch

/-- A task that is started obeys like the others, whose debts stay as they are. -/
theorem obeys_start (tracks : Tracks launcherOf busy agenda history owed)
    {child : Process State Result} {owed' : TaskId → List LaunchId}
    (obeys : ∀ later, child.Obeys launcherOf (owed' agenda.tasks.size) later)
    (others : ∀ other, busy ≠ some other → other ≠ agenda.tasks.size → owed' other = owed other) :
    ∀ other next, busy ≠ some other → (agenda.start child).plan other = some next →
      ∀ wake later, (next wake).Obeys launcherOf (owed' other) later := by
  intro other next different planned
  rw [Agenda.plan_start] at planned
  split at planned
  · next new =>
      subst new
      obtain rfl := Option.some.inj planned
      intro wake later
      -- A task that is interrupted before it began does nothing at all.
      cases wake with
      | resumed => exact obeys later
      | interrupted => exact trivial
  · next old =>
      rw [others other different old]
      exact tracks.obeys other next different planned

/-- A task hands on what it owes to a task that it starts. -/
theorem start (tracks : Tracks launcherOf (some task) agenda history owed)
    {child : Process State Result} {given kept : List LaunchId}
    (shared : (owed task).Perm (given ++ kept))
    (obeys : ∀ later, child.Obeys launcherOf given later) :
    Tracks launcherOf (some task) (agenda.start child) history
      (Function.update (Function.update owed task kept) agenda.tasks.size given) where
  legal := tracks.legal
  launcher_eq := tracks.launcher_eq
  obeys := by
    refine tracks.obeys_start (by rwa [Function.update_self]) fun other different old => ?_
    rw [Function.update_of_ne old,
      Function.update_of_ne fun same => different (congrArg some same.symm)]
  apportioned := tracks.apportioned.share agenda.tasks.size shared

/-- **A task that obeys makes legal moves until it waits or ends.** -/
theorem carryOn (process : Process State Result) {agenda : Agenda State Result}
    {history : List LaunchMove} {owed : TaskId → List LaunchId}
    (tracks : Tracks launcherOf (some task) agenda history owed)
    (known : task < agenda.tasks.size)
    (obeys : process.Obeys launcherOf (owed task) agenda.state) :
    ∃ moves owed', Tracks launcherOf none (Agenda.carryOn task process agenda) (moves ++ history)
      owed' := by
  -- On what the task does next; only `change` and `start` make a difference to what it owes.
  induction process generalizing agenda history owed with
  | finish result =>
      refine ⟨[], owed, tracks.leave none rfl ?_ nofun⟩
      exact agenda.plan_setStatus known (.ended result)
  | look next ih => exact ih agenda.state tracks known obeys
  | change update next ih =>
      obtain ⟨moves, owed', permits, later⟩ := obeys
      obtain ⟨moves', owed'', tracks'⟩ := ih (tracks.permit permits) known
        (by rwa [Function.update_self])
      exact ⟨moves' ++ moves, owed'', by rwa [List.append_assoc]⟩
  | clock next ih => exact ih agenda.now tracks known (obeys agenda.now)
  | pause next ih =>
      exact ⟨[], owed, tracks.stop rfl (agenda.plan_setStatus known (.queued next false)) obeys⟩
  | sleep span next ih =>
      exact ⟨[], owed,
        tracks.stop rfl (agenda.plan_setStatus known (.waiting next agenda.nextWait)) obeys⟩
  | start child next _ ih =>
      obtain ⟨given, kept, shared, childObeys, later⟩ := obeys
      have started := tracks.start shared childObeys
      refine ih agenda.tasks.size started ?_ ?_
      · rw [Agenda.start, Array.size_push]
        exact Nat.lt_succ_of_lt known
      · rw [Function.update_of_ne known.ne, Function.update_self]
        exact later _
  | interrupt other next ih =>
      refine ih (tracks.congr (agenda.state_interrupt other) (agenda.plan_interrupt other)) ?_ ?_
      · rwa [Agenda.size_interrupt]
      · rwa [Agenda.state_interrupt]
  | awaitAny tasks next ih =>
      have watched := (agenda.enterWait task next).rouses_foldl_watch task agenda.nextWait tasks
      refine ⟨[], owed, tracks.stop watched.state ?_ obeys⟩
      exact watched.plan_eq.trans
        (agenda.plan_setStatus known (.waiting next agenda.nextWait))
  | ended other next ih =>
      simp only [Agenda.carryOn]
      split
      · exact ih _ tracks known (obeys _)
      · exact ih _ tracks known (obeys _)
  | makeToken next ih => exact ih _ (tracks.congr rfl rfl) known (obeys _)
  | cancel token reason next ih =>
      have roused := agenda.rouses_cancel token reason
      refine ih (tracks.congr roused.state roused.plan_eq) ?_ ?_
      · rwa [roused.size]
      · rwa [roused.state]
  | cancelAfter span token reason next ih => exact ih (tracks.congr rfl rfl) known obeys
  | cancelled token next ih => exact ih _ tracks known (obeys _)
  | awaitCancel token next ih =>
      simp only [Agenda.carryOn]
      split
      · exact ⟨[], owed,
          tracks.stop rfl (agenda.plan_setStatus known (.waiting next agenda.nextWait)) obeys⟩
      · exact ih .resumed tracks known (obeys .resumed agenda.state)
  | setDeadline span next ih => exact ih _ (tracks.congr rfl rfl) known (obeys _)
  | clearDeadline deadline next ih =>
      simp only [Agenda.carryOn]
      split
      · exact ih _ (tracks.congr rfl rfl) known (obeys _)
      · exact ih false tracks known (obeys false)

/-- **Every turn is legal moves of a task that obeys.** -/
theorem take (tracks : Tracks launcherOf none agenda history owed) (turn : Turn) :
    ∃ moves owed', Tracks launcherOf none (agenda.take turn) (moves ++ history) owed' := by
  cases turn with
  | task task =>
      cases status : agenda.statusOf task with
      | queued next isInterrupted =>
          have planned : agenda.plan task = some next := by rw [plan, status]; rfl
          simp only [Agenda.take, status]
          exact (tracks.enter task).carryOn _ (lt_size_of_plan planned)
            (tracks.obeys task next (Option.some_ne_none task).symm planned _ _)
      | waiting next wait =>
          simp only [Agenda.take, status]
          exact ⟨[], owed, tracks⟩
      | ended result =>
          simp only [Agenda.take, status]
          exact ⟨[], owed, tracks⟩
  | wake task wait =>
      have roused := agenda.rouses_wake task wait
      exact ⟨[], owed, tracks.congr roused.state roused.plan_eq⟩
  | cancel token reason =>
      have roused := agenda.rouses_cancel token reason
      exact ⟨[], owed, tracks.congr roused.state roused.plan_eq⟩
  | deadline deadline =>
      exact ⟨[], owed, tracks.congr (agenda.state_passDeadline deadline)
        (agenda.plan_passDeadline deadline)⟩

/-- A process may begin that obeys and owes nothing. -/
theorem begin (tracks : Tracks launcherOf none agenda history owed)
    {process : Process State Result} (obeys : ∀ later, process.Obeys launcherOf [] later) :
    ∃ owed', Tracks launcherOf none (agenda.start process) history owed' := by
  refine ⟨Function.update owed agenda.tasks.size [], tracks.legal, tracks.launcher_eq, ?_,
    tracks.apportioned.update List.nodup_nil nofun nofun⟩
  refine tracks.obeys_start (by rwa [Function.update_self]) fun other _ old => ?_
  rw [Function.update_of_ne old]

end Tracks

end Agenda

end ModelAssist
