import ModelAssist.Proofs.Concurrency.Plan

/-!
# Acts that do not wait

What an act comes to that ends in the turn in which it begins: the agenda that it leaves
(`Act.Yields`), or only the state that it leads to, which tasks, tokens and alarms leave alone
(`Act.Leads`).
-/

namespace ModelAssist

namespace Act

variable {State Result Fault Output Other : Type}

/-- What follows two acts in a row is what follows the second one, or the stop of the first. -/
theorem exists_carry (act : Act State Result Fault Output)
    (rest : Output → Act State Result Fault Other)
    (next : Except (Stop Fault) Other → Process State Result) :
    ∃ carry, (act >>= rest) next = act carry ∧
      (∀ output, carry (.ok output) = rest output next) ∧
      ∀ stop, carry (.error stop) = next (.error stop) :=
  ⟨_, rfl, fun _ => rfl, fun _ => rfl⟩

/-- Holds if an act of a task yields a value without a wait, and leaves another agenda. -/
def Yields (act : Act State Result Fault Output) (task : TaskId) (before : Agenda State Result)
    (output : Output) (after : Agenda State Result) : Prop :=
  ∀ next : Except (Stop Fault) Output → Process State Result,
    Agenda.carryOn task (act next) before = Agenda.carryOn task (next (.ok output)) after

namespace Yields

variable {task : TaskId} {before middle after : Agenda State Result}

theorem pure (value : Output) :
    (Pure.pure value : Act State Result Fault Output).Yields task before value before :=
  fun _ => rfl

theorem bind {act : Act State Result Fault Output} {rest : Output → Act State Result Fault Other}
    {output : Output} {value : Other} (first : act.Yields task before output middle)
    (second : (rest output).Yields task middle value after) :
    (act >>= rest).Yields task before value after := by
  intro next
  obtain ⟨carry, bound, resumed, -⟩ := exists_carry act rest next
  rw [bound, first carry, resumed]
  exact second next

theorem look : (Act.look : Act State Result Fault State).Yields task before before.state before :=
  fun _ => rfl

theorem change (update : State → State) :
    (Act.change update : Act State Result Fault Unit).Yields task before ()
      { before with state := update before.state } :=
  fun _ => rfl

theorem step (update : State → State × Output) :
    (Act.step update : Act State Result Fault Output).Yields task before (update before.state).2
      { before with state := (update before.state).1 } :=
  fun _ => rfl

theorem makeToken : (Act.makeToken : Act State Result Fault TokenId).Yields task before
    before.tokens.size { before with tokens := before.tokens.push ⟨none, []⟩ } :=
  fun _ => rfl

theorem start (child : Process State Result) :
    (Act.start child : Act State Result Fault TaskId).Yields task before before.tasks.size
      (before.start child) :=
  fun _ => rfl

end Yields

/-- Holds if an act that begins in a state ends without a wait and without a fault, and what it
yields and the state that it leaves meet a condition. -/
def Leads (act : Act State Result Fault Output) (before : State)
    (meets : Output → State → Prop) : Prop :=
  ∀ (task : TaskId) (next : Except (Stop Fault) Output → Process State Result)
      (agenda : Agenda State Result), agenda.state = before →
    ∃ output after, meets output after.state ∧
      Agenda.carryOn task (act next) agenda = Agenda.carryOn task (next (.ok output)) after

namespace Leads

variable {before : State} {meets : Output → State → Prop}

/-- An act leads to what it yields on every agenda. -/
theorem of_yields {act : Act State Result Fault Output}
    (yields : ∀ (task : TaskId) (agenda : Agenda State Result), agenda.state = before →
      ∃ output after, meets output after.state ∧ act.Yields task agenda output after) :
    act.Leads before meets := by
  intro task next agenda begun
  obtain ⟨output, after, met, yielded⟩ := yields task agenda begun
  exact ⟨output, after, met, yielded next⟩

/-- An act leads to whatever follows from what it leads to. -/
theorem weaken {act : Act State Result Fault Output} (leads : act.Leads before meets)
    {meets' : Output → State → Prop} (follows : ∀ output after, meets output after →
      meets' output after) : act.Leads before meets' := by
  intro task next agenda begun
  obtain ⟨output, after, met, carried⟩ := leads task next agenda begun
  exact ⟨output, after, follows output after.state met, carried⟩

theorem pure {value : Output} (met : meets value before) :
    (Pure.pure value : Act State Result Fault Output).Leads before meets :=
  fun _ _ agenda begun => ⟨value, agenda, begun ▸ met, rfl⟩

theorem bind {act : Act State Result Fault Output} {meets' : Other → State → Prop}
    {rest : Output → Act State Result Fault Other} (first : act.Leads before meets)
    (second : ∀ output middle, meets output middle → (rest output).Leads middle meets') :
    (act >>= rest).Leads before meets' := by
  intro task next agenda begun
  obtain ⟨carry, bound, resumed, -⟩ := exists_carry act rest next
  obtain ⟨output, middle, met, carried⟩ := first task carry agenda begun
  obtain ⟨value, after, met', carried'⟩ := second output middle.state met task next middle rfl
  rw [bound]
  exact ⟨value, after, met', carried.trans (resumed output ▸ carried')⟩

theorem look {meets : State → State → Prop} (met : meets before before) :
    (Act.look : Act State Result Fault State).Leads before meets := by
  rintro task next agenda rfl
  exact ⟨agenda.state, agenda, met, rfl⟩

theorem change {update : State → State} {meets : Unit → State → Prop}
    (met : meets () (update before)) :
    (Act.change update : Act State Result Fault Unit).Leads before meets := by
  rintro task next agenda rfl
  exact ⟨(), { agenda with state := update agenda.state }, met, rfl⟩

theorem step {update : State → State × Output} (met : meets (update before).2 (update before).1) :
    (Act.step update : Act State Result Fault Output).Leads before meets := by
  rintro task next agenda rfl
  exact ⟨(update agenda.state).2, { agenda with state := (update agenda.state).1 }, met, rfl⟩

theorem start {child : Process State Result} {meets : TaskId → State → Prop}
    (met : ∀ task, meets task before) :
    (Act.start child : Act State Result Fault TaskId).Leads before meets := by
  rintro task next agenda rfl
  exact ⟨agenda.tasks.size, agenda.start child, met _, rfl⟩

theorem interrupt (task : TaskId) {meets : Unit → State → Prop} (met : meets () before) :
    (Act.interrupt task : Act State Result Fault Unit).Leads before meets := by
  rintro own next agenda rfl
  refine ⟨(), agenda.interrupt task, ?_, rfl⟩
  rw [Agenda.state_interrupt]
  exact met

theorem makeToken {meets : TokenId → State → Prop} (met : ∀ token, meets token before) :
    (Act.makeToken : Act State Result Fault TokenId).Leads before meets := by
  rintro task next agenda rfl
  exact ⟨agenda.tokens.size, { agenda with tokens := agenda.tokens.push ⟨none, []⟩ }, met _, rfl⟩

theorem cancel (token : TokenId) (reason : String) {meets : Unit → State → Prop}
    (met : meets () before) :
    (Act.cancel token reason : Act State Result Fault Unit).Leads before meets := by
  rintro task next agenda rfl
  refine ⟨(), agenda.cancel token reason, ?_, rfl⟩
  rw [(agenda.rouses_cancel token reason).state]
  exact met

end Leads

end Act

end ModelAssist
