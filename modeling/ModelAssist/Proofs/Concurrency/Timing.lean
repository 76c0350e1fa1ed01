import ModelAssist.Concurrency.Cancellation
import ModelAssist.Concurrency.Span
import ModelAssist.Proofs.Concurrency.Alone

/-!
# Acts by themselves

What an act does by itself within a time: it hands on (`Act.Does`), or it is still asleep at a
deadline and is cut short there (`Act.Expires`).  Work within a time limit comes to one or the other
(`Process.ComesTo`).
-/

namespace ModelAssist

variable {State Result Fault Output Other : Type}

/-- Holds if an act that begins in a state at a moment hands on with an output in another state at
another moment, by itself and within its time. -/
def Act.Does (limit : Option Moment) (act : Act State Result Fault Output) (before : State)
    (now : Moment) (ended : Except (Stop Fault) Output) (after : State) (later : Moment) : Prop :=
  ∀ next, (act next).alone limit before now = (next ended).alone limit after later

/-- Holds if an act sleeps beyond a deadline, and if it hands on at once in the given state when it
is interrupted in that sleep. -/
def Act.Expires (deadline : Moment) (act : Act State Result Fault Output) (before : State)
    (now : Moment) (after : State) : Prop :=
  ∃ span middle moment, ∃ left : (Except (Stop Fault) Output → Process State Result) → Wake → _,
    ∀ next, (act next).alone (some deadline) before now =
        some (.overdue span (left next), middle, moment) ∧
      ∀ later, (left next .interrupted).alone none middle later =
        (next (.error .interrupted)).alone none after later

namespace Act.Does

variable {limit : Option Moment} {before middle after : State} {now moment later : Moment}
  {act : Act State Result Fault Output} {ended : Except (Stop Fault) Output}

theorem pure (value : Output) :
    (Pure.pure value : Act State Result Fault Output).Does limit before now (.ok value) before
      now :=
  fun _ => rfl

theorem throw (stop : Stop Fault) :
    (throw stop : Act State Result Fault Output).Does limit before now (.error stop) before now :=
  fun _ => rfl

theorem clock : (Act.clock : Act State Result Fault Moment).Does limit before now (.ok now) before
    now :=
  fun _ => rfl

theorem change (update : State → State) :
    (Act.change update : Act State Result Fault Unit).Does limit before now (.ok ()) (update before)
      now :=
  fun _ => rfl

theorem step (update : State → State × Output) :
    (Act.step update : Act State Result Fault Output).Does limit before now
      (.ok (update before).2) (update before).1 now :=
  fun _ => rfl

/-- Two acts are done one after another within one limit. -/
theorem bind {rest : Output → Act State Result Fault Other} {value : Output}
    {ended : Except (Stop Fault) Other}
    (first : act.Does limit before now (.ok value) middle moment)
    (second : (rest value).Does limit middle moment ended after later) :
    (act >>= rest).Does limit before now ended after later :=
  fun next => (first _).trans (second next)

/-- An act that stops keeps what would follow from being done. -/
theorem stop {rest : Output → Act State Result Fault Other} {stop : Stop Fault}
    (first : act.Does limit before now (.error stop) after later) :
    (act >>= rest).Does limit before now (.error stop) after later :=
  fun _ => first _

/-- An act that is attempted is done as it would be otherwise. -/
theorem attempt (does : act.Does limit before now ended after later) :
    (Act.attempt act).Does limit before now (.ok ended) after later :=
  fun _ => does _

/-- Two acts are done one after another however the first one ended. -/
theorem ensure {last : Act State Result Fault Unit}
    (first : act.Does limit before now ended middle moment)
    (second : last.Does limit middle moment (.ok ()) after later) :
    (Act.ensure act last).Does limit before now ended after later := by
  refine bind (attempt first) (bind second ?_)
  cases ended with
  | ok value => exact pure value
  | error stop => exact throw stop

/-- A sleep is done if it is over before the limit. -/
theorem sleepSeconds {seconds : Float}
    (early : 0 < seconds → ∀ due ∈ limit, now + Span.ofSeconds seconds < due) :
    (Act.sleepSeconds seconds : Act State Result Fault Unit).Does limit before now (.ok ()) before
      (now + Span.ofSeconds seconds) := by
  intro next
  unfold Act.sleepSeconds
  split
  · next sleeps =>
      have inTime : limit.any (· ≤ now + Span.ofSeconds seconds) = false := by
        rw [Option.any_eq_false]
        exact fun due given => decide_eq_false (Nat.not_le.mpr (early sleeps due given))
      rw [Act.sleep, Process.alone, inTime]
      rfl
  · next stays =>
      have nothing : Span.ofSeconds seconds = 0 := if_neg stays
      rw [nothing]
      rfl

end Act.Does

namespace Act.Expires

variable {deadline : Moment} {before middle after : State} {now moment : Moment}
  {act : Act State Result Fault Output}

/-- A sleep expires if the deadline comes first. -/
theorem sleepSeconds {seconds : Float} (sleeps : 0 < seconds)
    (late : deadline ≤ now + Span.ofSeconds seconds) :
    (Act.sleepSeconds seconds : Act State Result Fault Unit).Expires deadline before now
      before := by
  refine ⟨Span.ofSeconds seconds, before, now, afterWake, fun next => ⟨?_, fun _ => rfl⟩⟩
  rw [Act.sleepSeconds, if_pos sleeps, Act.sleep, Process.alone, if_pos]
  exact decide_eq_true late

/-- An act that expires keeps what would follow from being done. -/
theorem stop {rest : Output → Act State Result Fault Other}
    (expires : act.Expires deadline before now after) :
    (act >>= rest).Expires deadline before now after := by
  obtain ⟨span, asleep, later, left, sleeps⟩ := expires
  exact ⟨span, asleep, later, fun next => left _, fun next => sleeps _⟩

/-- An act expires in its second part if the first part is done in time. -/
theorem bind {rest : Output → Act State Result Fault Other} {value : Output}
    (first : act.Does (some deadline) before now (.ok value) middle moment)
    (second : (rest value).Expires deadline middle moment after) :
    (act >>= rest).Expires deadline before now after := by
  obtain ⟨span, asleep, later, left, sleeps⟩ := second
  exact ⟨span, asleep, later, left, fun next => ⟨(first _).trans (sleeps next).1, (sleeps next).2⟩⟩

/-- What is done in any case is done when an act expires. -/
theorem ensure {last : Act State Result Fault Unit}
    (expires : act.Expires deadline before now middle)
    (closes : ∀ later, last.Does none middle later (.ok ()) after later) :
    (Act.ensure act last).Expires deadline before now after := by
  obtain ⟨span, asleep, moment, left, sleeps⟩ := expires
  refine ⟨span, asleep, moment, fun next => left _, fun next => ⟨(sleeps _).1, fun later => ?_⟩⟩
  refine ((sleeps _).2 later).trans ?_
  exact closes later _

end Act.Expires

/-- How work ended, by the result of its task. -/
def Act.endOf : Option (Except Fault Output) → Except (Stop Fault) Output
  | some (.ok value) => .ok value
  | some (.error fault) => .error (.fault fault)
  | none => .error .interrupted

/-- The task of an act ends when the act does, with a result that tells how. -/
theorem Act.toProcess_eq (act : Act State (Except Fault Output) Fault Output) :
    ∃ finish, toProcess act = act finish ∧
      ∀ ended, ∃ result, finish ended = .finish result ∧ endOf result = ended := by
  refine ⟨_, rfl, ?_⟩
  rintro ((_ | _) | _)
  · exact ⟨none, rfl, rfl⟩
  · exact ⟨some (.error _), rfl, rfl⟩
  · exact ⟨some (.ok _), rfl, rfl⟩

/-- What work comes to by itself within a time, or cut short at its end. -/
def Process.ComesTo (work : Process State (Except Fault Output)) (span : Moment)
    (onTimeout : Fault) (before : State) (now : Moment)
    (meets : Except (Stop Fault) Output → State → Prop) : Prop :=
  ∃ pursuit state moment,
    work.alone (some (now + span)) before now = some (pursuit, state, moment) ∧
    match pursuit with
    | .ended result => meets (Act.endOf result) state
    | .overdue _ left => ∃ result last moment,
        (left .interrupted).alone none state (now + span) = some (.ended result, last, moment) ∧
          meets (.error (.fault onTimeout)) last

namespace Process.ComesTo

variable {act : Act State (Except Fault Output) Fault Output} {span now later : Moment}
  {onTimeout : Fault} {before after : State} {ended : Except (Stop Fault) Output}
  {meets : Except (Stop Fault) Output → State → Prop}

/-- What is done in time comes to what it would come to without a deadline. -/
theorem of_does (does : act.Does (some (now + span)) before now ended after later)
    (met : meets ended after) :
    (Act.toProcess act).ComesTo span onTimeout before now meets := by
  obtain ⟨finish, same, finishes⟩ := Act.toProcess_eq act
  obtain ⟨result, ends, rfl⟩ := finishes ended
  refine ⟨.ended result, after, later, ?_, met⟩
  rw [same, does, ends]
  rfl

/-- What expires comes to the fault of the deadline. -/
theorem of_expires (expires : act.Expires (now + span) before now after)
    (met : meets (.error (.fault onTimeout)) after) :
    (Act.toProcess act).ComesTo span onTimeout before now meets := by
  obtain ⟨rest, asleep, moment, left, sleeps⟩ := expires
  obtain ⟨gets, ends⟩ := sleeps _
  exact ⟨_, asleep, moment, gets, none, after, now + span, ends _, met⟩

end Process.ComesTo

end ModelAssist
