import ModelAssist.Proofs.Concurrency.Closed
import ModelAssist.Proofs.Concurrency.Plan

/-!
# How processes end

A process runs among others.  What it is told about tasks, tokens and the clock, how its waits end
and what becomes of the state meanwhile is left open here, so that `Process.Ends` covers every
schedule: whatever turns the tasks of an agenda take, a task ends as its process may
(`Agenda.Awaits.take`).  Acts that hand on can be followed one by one, however they end
(`Act.HandsOn`).
-/

namespace ModelAssist

variable {State Result Fault Output Other : Type}

/-- Holds if a process that carries on in one state may end with a result in another one. -/
def Process.Ends : Process State Result → State → Option Result → State → Prop
  | .finish own, state, result, last => result = own ∧ last = state
  | .look next, state, result, last => (next state).Ends state result last
  | .change update next, state, result, last => next.Ends (update state) result last
  | .clock next, state, result, last => ∃ now, (next now).Ends state result last
  | .pause next, _, result, last | .sleep _ next, _, result, last
  | .awaitAny _ next, _, result, last | .awaitCancel _ next, _, result, last =>
    ∃ wake later, (next wake).Ends later result last
  | .start _ next, state, result, last => ∃ task, (next task).Ends state result last
  | .interrupt _ next, state, result, last | .cancel _ _ next, state, result, last
  | .cancelAfter _ _ _ next, state, result, last => next.Ends state result last
  | .ended _ next, state, result, last => ∃ known, (next known).Ends state result last
  | .makeToken next, state, result, last => ∃ token, (next token).Ends state result last
  | .cancelled _ next, state, result, last => ∃ reason, (next reason).Ends state result last
  | .setDeadline _ next, state, result, last => ∃ deadline, (next deadline).Ends state result last
  | .clearDeadline _ next, state, result, last => ∃ passed, (next passed).Ends state result last

namespace Agenda

variable {agenda : Agenda State Result} {task : TaskId}

/-- Holds if whatever a task comes to from a wait on is what is expected of it. -/
def Awaits (agenda : Agenda State Result) (task : TaskId)
    (expected : Option Result → State → Prop) : Prop :=
  ∃ next, agenda.plan task = some next ∧
    ∀ wake later result last, (next wake).Ends later result last → expected result last

/-- Holds if a task has carried on to a wait or to its end, and has left the others their plans. -/
structure Carried (task : TaskId) (expected : Option Result → State → Prop)
    (before after : Agenda State Result) : Prop where
  own : after.Awaits task expected ∨
    ∃ result, after.statusOf task = .ended result ∧ expected result after.state
  others : ∀ other, other ≠ task → other < before.tasks.size →
    after.plan other = before.plan other

namespace Carried

variable {expected : Option Result → State → Prop}

/-- Only the plans and the count of the tasks matter to what is carried on. -/
theorem congr {before before' after : Agenda State Result}
    (carried : Carried task expected before' after) (same : before'.plan = before.plan)
    (size : before'.tasks.size = before.tasks.size) : Carried task expected before after where
  own := carried.own
  others other different there := same ▸ carried.others other different (size ▸ there)

/-- A task that waits carries on whatever its process comes to after the wait. -/
theorem wait {after : Agenda State Result} {next : Wake → Process State Result}
    (planned : after.plan = Function.update agenda.plan task (some next))
    (onward : ∀ wake later result last, (next wake).Ends later result last →
      expected result last) : Carried task expected agenda after where
  own := .inl ⟨next, by rw [planned, Function.update_self], onward⟩
  others other different _ := by rw [planned, Function.update_of_ne different]

end Carried

/-- A task that carries on comes to a wait or to the end of its process. -/
theorem carried_carryOn (expected : Option Result → State → Prop)
    (process : Process State Result) (known : task < agenda.tasks.size)
    (onward : ∀ result last, process.Ends agenda.state result last → expected result last) :
    Carried task expected agenda (carryOn task process agenda) := by
  -- On what the task does next; what it is told is one of the things that it may be told.
  induction process generalizing agenda with
  | finish result =>
      refine ⟨.inr ⟨result, ?_, onward result _ ⟨rfl, rfl⟩⟩, fun other different _ => ?_⟩
      · exact (agenda.statusOf_setStatus known _ task).trans (if_pos rfl)
      · exact (congrFun (agenda.plan_setStatus known _) other).trans
          (Function.update_of_ne different _ _)
  | look next ih => exact ih _ known onward
  | change update next ih => exact Carried.congr (ih known onward) rfl rfl
  | clock next ih => exact ih _ known fun result last ends => onward result last ⟨_, ends⟩
  | pause next ih =>
      exact .wait (agenda.plan_setStatus known (.queued next false))
        fun wake later result last ends => onward result last ⟨wake, later, ends⟩
  | sleep span next ih =>
      exact .wait (agenda.plan_setStatus known (.waiting next agenda.nextWait))
        fun wake later result last ends => onward result last ⟨wake, later, ends⟩
  | start child next _ ih =>
      have size : (agenda.start child).tasks.size = agenda.tasks.size + 1 := Array.size_push _
      have carried : Carried task expected (agenda.start child)
          (carryOn task (next agenda.tasks.size) (agenda.start child)) :=
        ih _ (size ▸ Nat.lt_succ_of_lt known) fun result last ends => onward result last ⟨_, ends⟩
      refine ⟨carried.own, fun other different there => ?_⟩
      exact (carried.others other different (size ▸ Nat.lt_succ_of_lt there)).trans
        ((agenda.plan_start child other).trans (if_neg (Nat.ne_of_lt there)))
  | interrupt other next ih =>
      refine (ih ?_ ?_).congr (agenda.plan_interrupt other) (agenda.size_interrupt other)
      · rwa [size_interrupt]
      · rwa [state_interrupt]
  | awaitAny tasks next ih =>
      have watched := (agenda.enterWait task next).rouses_foldl_watch task agenda.nextWait tasks
      refine .wait (watched.plan_eq.trans
        (agenda.plan_setStatus known (.waiting next agenda.nextWait))) ?_
      exact fun wake later result last ends => onward result last ⟨wake, later, ends⟩
  | ended other next ih =>
      rw [carryOn]
      split
      · exact ih _ known fun result last ends => onward result last ⟨_, ends⟩
      · exact ih _ known fun result last ends => onward result last ⟨_, ends⟩
  | makeToken next ih =>
      exact Carried.congr (ih _ known fun result last ends => onward result last ⟨_, ends⟩) rfl rfl
  | cancel token reason next ih =>
      have roused := agenda.rouses_cancel token reason
      refine (ih ?_ ?_).congr roused.plan_eq roused.size
      · rwa [roused.size]
      · rwa [roused.state]
  | cancelAfter span token reason next ih => exact Carried.congr (ih known onward) rfl rfl
  | cancelled token next ih =>
      exact ih _ known fun result last ends => onward result last ⟨_, ends⟩
  | awaitCancel token next ih =>
      rw [carryOn]
      split
      · exact .wait (agenda.plan_setStatus known (.waiting next agenda.nextWait))
          fun wake later result last ends => onward result last ⟨wake, later, ends⟩
      · exact ih .resumed known fun result last ends => onward result last ⟨_, _, ends⟩
  | setDeadline span next ih =>
      exact Carried.congr (ih _ known fun result last ends => onward result last ⟨_, ends⟩) rfl rfl
  | clearDeadline deadline next ih =>
      rw [carryOn]
      split
      · exact Carried.congr (ih _ known fun result last ends => onward result last ⟨_, ends⟩)
          rfl rfl
      · exact ih false known fun result last ends => onward result last ⟨_, ends⟩

/-- **A task ends as its process may.**  Whatever turn is taken, a task that awaits what is expected
of it still does so, or it has ended as expected. -/
theorem Awaits.take {expected : Option Result → State → Prop}
    (awaits : agenda.Awaits task expected) (turn : Turn) :
    (agenda.take turn).Awaits task expected ∨
      ∃ result, (agenda.take turn).statusOf task = .ended result ∧
        expected result (agenda.take turn).state := by
  obtain ⟨next, planned, onward⟩ := awaits
  have unchanged : ∀ {after : Agenda State Result}, after.plan = agenda.plan →
      after.Awaits task expected := fun same => ⟨next, same ▸ planned, onward⟩
  cases turn with
  | task other =>
      cases status : agenda.statusOf other with
      | queued next' isInterrupted =>
          have planned' : agenda.plan other = some next' := by rw [plan, status]; rfl
          simp only [Agenda.take, status]
          by_cases own : other = task
          · subst own
            obtain rfl := Option.some.inj (planned.symm.trans planned')
            exact (carried_carryOn expected _ (lt_size_of_plan planned) fun result last ends =>
              onward _ _ result last ends).own
          · have carried := carried_carryOn (fun _ _ => True)
              (next' (if isInterrupted then .interrupted else .resumed))
              (lt_size_of_plan planned') fun _ _ _ => trivial
            refine .inl ⟨next, ?_, onward⟩
            rw [carried.others task (Ne.symm own) (lt_size_of_plan planned), planned]
      | waiting next' wait =>
          simp only [Agenda.take, status]
          exact .inl (unchanged rfl)
      | ended result =>
          simp only [Agenda.take, status]
          exact .inl (unchanged rfl)
  | wake other wait => exact .inl (unchanged (agenda.rouses_wake other wait).plan_eq)
  | cancel token reason => exact .inl (unchanged (agenda.rouses_cancel token reason).plan_eq)
  | deadline deadline => exact .inl (unchanged (agenda.plan_passDeadline deadline))

/-- A task that was just started may be interrupted before it has begun. -/
theorem awaits_start {expected : Option Result → State → Prop} {process : Process State Result}
    (onward : ∀ state result last, process.Ends state result last → expected result last)
    (unbegun : ∀ last, expected none last) :
    (agenda.start process).Awaits agenda.tasks.size expected := by
  refine ⟨_, (agenda.plan_start process _).trans (if_pos rfl), ?_⟩
  intro wake later result last ends
  cases wake with
  | resumed => exact onward later result last ends
  | interrupted =>
      obtain ⟨rfl, -⟩ := ends
      exact unbegun last

/-- While an agenda runs, a task awaits what is expected of it until it ends as expected. -/
theorem Awaits.runWithin {expected : Option Result → State → Prop}
    (awaits : agenda.Awaits task expected) (limit : Option Moment) (turns : Nat) :
    (agenda.runWithin limit turns).Awaits task expected ∨
      ∃ fewer ≤ turns, ∃ result,
        (agenda.runWithin limit fewer).statusOf task = .ended result ∧
          expected result (agenda.runWithin limit fewer).state := by
  induction turns generalizing agenda with
  | zero => exact .inl awaits
  | succ turns ih =>
      -- A step leads to an agenda in which the task still awaits the same, or has ended.
      have onward : ∀ after : Agenda State Result,
          (∀ count, agenda.runWithin limit (count + 1) = after.runWithin limit count) →
          (after.Awaits task expected ∨ ∃ result, after.statusOf task = .ended result ∧
            expected result after.state) →
          (agenda.runWithin limit (turns + 1)).Awaits task expected ∨
            ∃ fewer ≤ turns + 1, ∃ result,
              (agenda.runWithin limit fewer).statusOf task = .ended result ∧
                expected result (agenda.runWithin limit fewer).state := by
        intro after same came
        rcases came with awaits' | ⟨result, ended, met⟩
        · rw [same]
          refine (ih awaits').imp_right ?_
          rintro ⟨fewer, bound, result, ended, met⟩
          exact ⟨fewer + 1, Nat.succ_le_succ bound, result, same fewer ▸ ended, same fewer ▸ met⟩
        · exact .inr ⟨1, Nat.le_add_left 1 turns, result, same 0 ▸ ended, same 0 ▸ met⟩
      have idle : (∀ count, agenda.runWithin limit (count + 1) = agenda) →
          (agenda.runWithin limit (turns + 1)).Awaits task expected := by
        intro same
        rwa [same]
      cases queue : agenda.queue with
      | cons turn rest =>
          refine onward _ (fun count => by simp only [Agenda.runWithin, queue]; rfl) ?_
          have awaits' : Awaits { agenda with queue := rest } task expected := awaits
          exact awaits'.take turn
      | nil =>
          cases due : agenda.nextDue? with
          | none => exact .inl (idle fun count => by simp only [Agenda.runWithin, queue, due])
          | some moment =>
              by_cases soon : limit.all (moment ≤ ·)
              · refine onward (agenda.moveTo moment) (fun count => ?_) (.inl awaits)
                simp only [Agenda.runWithin, queue, due, soon, ↓reduceIte]
              · refine .inl (idle fun count => ?_)
                simp only [Agenda.runWithin, queue, due, soon]
                rfl

end Agenda

/-! ## Acts -/

/-- Holds if an act may end with an output in a state: whatever follows it may go on from there. -/
def Act.Ends (act : Act State Result Fault Output) (state : State)
    (output : Except (Stop Fault) Output) (later : State) : Prop :=
  ∀ next result last, (next output).Ends later result last → (act next).Ends state result last

/-- Holds of the acts that hand on, sooner or later, to what follows them. -/
def Act.HandsOn (act : Act State Result Fault Output) : Prop :=
  ∀ next state result last, (act next).Ends state result last →
    ∃ output later, act.Ends state output later ∧ (next output).Ends later result last

namespace Act.HandsOn

theorem pure (value : Output) : (Pure.pure value : Act State Result Fault Output).HandsOn :=
  fun _ state _ _ ends => ⟨.ok value, state, fun _ _ _ => id, ends⟩

theorem throw (stop : Stop Fault) : (throw stop : Act State Result Fault Output).HandsOn :=
  fun _ state _ _ ends => ⟨.error stop, state, fun _ _ _ => id, ends⟩

theorem bind {act : Act State Result Fault Output} {rest : Output → Act State Result Fault Other}
    (first : act.HandsOn) (second : ∀ output, (rest output).HandsOn) : (act >>= rest).HandsOn := by
  intro next state result last ends
  obtain ⟨output, later, before, after⟩ := first _ state result last ends
  cases output with
  | ok value =>
      obtain ⟨output, later', before', after'⟩ := second value next later result last after
      exact ⟨output, later', fun next r l ends => before _ r l (before' next r l ends), after'⟩
  | error stop => exact ⟨.error stop, later, fun next r l ends => before _ r l ends, after⟩

theorem attempt {act : Act State Result Fault Output} (handsOn : act.HandsOn) :
    (Act.attempt act).HandsOn := by
  intro next state result last ends
  obtain ⟨output, later, before, after⟩ := handsOn _ state result last ends
  exact ⟨.ok output, later, fun next r l ends => before _ r l ends, after⟩

theorem look : (Act.look : Act State Result Fault State).HandsOn :=
  fun _ state _ _ ends => ⟨.ok state, state, fun _ _ _ => id, ends⟩

theorem change (update : State → State) :
    (Act.change update : Act State Result Fault Unit).HandsOn :=
  fun _ state _ _ ends => ⟨.ok (), update state, fun _ _ _ => id, ends⟩

theorem step (update : State → State × Output) :
    (Act.step update : Act State Result Fault Output).HandsOn :=
  fun _ state _ _ ends => ⟨.ok (update state).2, (update state).1, fun _ _ _ => id, ends⟩

/-- What waits hands on however the wait ends. -/
theorem wait {act : Act State Result Fault Unit}
    (waits : ∀ next state result last, (act next).Ends state result last ↔
      ∃ wake later, (Act.afterWake next wake).Ends later result last) : act.HandsOn := by
  intro next state result last ends
  obtain ⟨wake, later, after⟩ := (waits next state result last).mp ends
  have before : ∀ next result last, (Act.afterWake next wake).Ends later result last →
      (act next).Ends state result last :=
    fun next result last ends => (waits next state result last).mpr ⟨wake, later, ends⟩
  cases wake with
  | resumed => exact ⟨.ok (), later, before, after⟩
  | interrupted => exact ⟨.error .interrupted, later, before, after⟩

theorem pause : (Act.pause : Act State Result Fault Unit).HandsOn :=
  wait fun _ _ _ _ => .rfl

theorem sleep (span : Moment) : (Act.sleep span : Act State Result Fault Unit).HandsOn :=
  wait fun _ _ _ _ => .rfl

theorem awaitAny (tasks : List TaskId) :
    (Act.awaitAny tasks : Act State Result Fault Unit).HandsOn :=
  wait fun _ _ _ _ => .rfl

/-- What is told something hands on whatever it is told. -/
theorem told {act : Act State Result Fault Output}
    (tells : ∀ next state result last, (act next).Ends state result last ↔
      ∃ output, (next (.ok output)).Ends state result last) : act.HandsOn := by
  intro next state result last ends
  obtain ⟨output, after⟩ := (tells next state result last).mp ends
  refine ⟨.ok output, state, fun next result last ends => ?_, after⟩
  exact (tells next state result last).mpr ⟨output, ends⟩

theorem clock : (Act.clock : Act State Result Fault Moment).HandsOn :=
  told fun _ _ _ _ => .rfl

theorem ended (task : TaskId) :
    (Act.ended task : Act State Result Fault (Option (Option Result))).HandsOn :=
  told fun _ _ _ _ => .rfl

theorem cancelled (token : TokenId) :
    (Act.cancelled token : Act State Result Fault (Option String)).HandsOn :=
  told fun _ _ _ _ => .rfl

theorem setDeadline (span : Moment) :
    (Act.setDeadline span : Act State Result Fault DeadlineId).HandsOn :=
  told fun _ _ _ _ => .rfl

theorem clearDeadline (deadline : DeadlineId) :
    (Act.clearDeadline deadline : Act State Result Fault Bool).HandsOn :=
  told fun _ _ _ _ => .rfl

theorem start (child : Process State Result) :
    (Act.start child : Act State Result Fault TaskId).HandsOn :=
  told fun _ _ _ _ => .rfl

theorem interrupt (task : TaskId) : (Act.interrupt task : Act State Result Fault Unit).HandsOn :=
  fun _ state _ _ ends => ⟨.ok (), state, fun _ _ _ => id, ends⟩

/-- Acts hand on whatever the tasks are that they start. -/
theorem closed {Value : Type} :
    Act.Closed (fun act : Act State (Except Fault Value) Fault _ => act.HandsOn) fun _ => True :=
  Act.Composes.closed
    { pure, throw, bind, attempt, look, clock, pause, sleep, awaitAny, cancelled
      start := fun _ => start _ }
    interrupt ended setDeadline clearDeadline

end Act.HandsOn

end ModelAssist
