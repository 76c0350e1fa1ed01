import Mathlib.Data.List.Infix
import ModelAssist.Validator.Launcher

/-!
# Launches of the validator

What may happen to the launches of a validator, in any order: requests that found nobody listening,
ends of launches, and requests that learn what became of a launch.  A request that learns late that
a launch failed makes the launcher forget the launch that is shared by then, although that one may
be in flight: it is displaced (`Launcher.Displaced`), and the next request begins another one beside
it.  Of the launches that did not fail all but the newest one were displaced
(`Launcher.Sound.displaced`).  When all launches were learned of, the validator is started or
nothing is shared (`Launcher.Legal.settled`).
-/

namespace ModelAssist

/-- What happens to the launches of a validator. -/
inductive LaunchMove where
  /-- A request found nobody listening. -/
  | request
  | finish (launch : LaunchId) (outcome : Except String Unit)
  /-- A request that waited for a launch looks what became of it. -/
  | collect (launch : LaunchId)

/-- A state of a launch that has failed. -/
def LaunchState.IsFailed (state : LaunchState) : Prop :=
  ∃ reason, state = .failed reason

namespace Launcher

/-- The launcher after a move. -/
def move (launcher : Launcher) : LaunchMove → Launcher
  | .request => launcher.request.1
  | .finish launch outcome => launcher.finish launch outcome
  | .collect launch => (launcher.collect launch).1

/-- The launcher after some moves, the last one first. -/
def after : List LaunchMove → Launcher
  | [] => .initial
  | move :: earlier => (after earlier).move move

/-- Holds if only launches end that are in flight. -/
def Legal : List LaunchMove → Prop
  | [] => True
  | move :: earlier =>
    (∀ launch outcome, move = .finish launch outcome →
      (after earlier).launches[launch]? = some .inFlight) ∧ Legal earlier

/-- Holds if a request that looks what became of a failed launch makes a launcher forget another one
that is in flight. -/
structure Displaces (launcher : Launcher) (failed launch : LaunchId) : Prop where
  hasFailed : ∃ reason, launcher.launches[failed]? = some (.failed reason)
  shared : launcher.current = some launch
  inFlight : launcher.launches[launch]? = some .inFlight

/-- Holds of the launches that were forgotten while they were in flight. -/
def Displaced (history : List LaunchMove) (launch : LaunchId) : Prop :=
  ∃ failed earlier, .collect failed :: earlier <:+ history ∧
    (after earlier).Displaces failed launch

/-- What was displaced stays displaced. -/
theorem Displaced.cons {history : List LaunchMove} {launch : LaunchId}
    (displaced : Displaced history launch) (move : LaunchMove) :
    Displaced (move :: history) launch := by
  obtain ⟨failed, earlier, among, displaces⟩ := displaced
  exact ⟨failed, earlier, among.trans (List.suffix_cons move history), displaces⟩

section Moves

variable {launcher : Launcher}

theorem stateOf_eq_failed_iff {launch : LaunchId} {reason : String} :
    launcher.stateOf launch = .failed reason ↔
      launcher.launches[launch]? = some (.failed reason) := by
  rw [stateOf, List.getD_eq_getElem?_getD]
  cases launcher.launches[launch]? with
  | none => simp
  | some state => simp

/-- A request changes nothing, or it begins a launch where nothing is started and nothing shared. -/
theorem request_cases (launcher : Launcher) :
    launcher.request.1 = launcher ∧ (∀ launch, launcher.request.2 ≠ .begin launch) ∨
      launcher.isStarted = false ∧ launcher.current = none ∧
        launcher.request =
          (⟨launcher.launches ++ [.inFlight], some launcher.launches.length, launcher.isStarted⟩,
            .begin launcher.launches.length) := by
  unfold request
  split
  · exact Or.inl ⟨rfl, nofun⟩
  · next unstarted =>
      cases shared : launcher.current with
      | some launch => exact Or.inl ⟨rfl, nofun⟩
      | none => exact Or.inr ⟨by simpa using unstarted, rfl, rfl⟩

/-- Looking what became of a launch changes nothing unless it failed. -/
theorem collect_cases (launcher : Launcher) (launch : LaunchId) :
    (launcher.collect launch).1 = launcher ∨
      (∃ reason, launcher.launches[launch]? = some (.failed reason)) ∧
        (launcher.collect launch).1 = { launcher with current := none } := by
  unfold collect
  split
  · next reason failed => exact Or.inr ⟨⟨reason, stateOf_eq_failed_iff.mp failed⟩, rfl⟩
  · exact Or.inl rfl

/-- The state in which a launch is left that ends. -/
def endState : Except String Unit → LaunchState
  | .ok () => .succeeded
  | .error reason => .failed reason

theorem finish_eq (launcher : Launcher) (launch : LaunchId) (outcome : Except String Unit) :
    launcher.finish launch outcome =
      { launcher with
        launches := launcher.launches.set launch (endState outcome)
        isStarted := launcher.isStarted || outcome.isOk } := by
  cases outcome with
  | ok value => simp [finish, endState, Except.isOk, Except.toBool]
  | error reason => simp [finish, endState, Except.isOk, Except.toBool]

end Moves

/-- What holds of the launches after any moves. -/
structure Sound (history : List LaunchMove) : Prop where
  /-- Requests share the newest launch. -/
  newest : ∀ launch, (after history).current = some launch →
    launch + 1 = (after history).launches.length
  /-- The validator was started by a launch that succeeded. -/
  started_iff : (after history).isStarted ↔ .succeeded ∈ (after history).launches
  /-- A launch that did not fail was displaced unless it is the newest one. -/
  unfailed : ∀ launch state, (after history).launches[launch]? = some state → ¬ state.IsFailed →
    Displaced history launch ∨
      launch + 1 = (after history).launches.length ∧
        ((after history).current = some launch ∨ state = .succeeded)

namespace Sound

theorem nil : Sound [] where
  newest _ shared := by cases shared
  started_iff := by simp [after, initial]
  unfailed _ _ found := by cases found

variable {earlier : List LaunchMove} (sound : Sound earlier)
include sound

theorem keep {move : LaunchMove} (same : after (move :: earlier) = after earlier) :
    Sound (move :: earlier) := by
  refine ⟨?_, ?_, ?_⟩
  · rw [same]
    exact sound.newest
  · rw [same]
    exact sound.started_iff
  · rw [same]
    intro launch state found unfailed
    exact (sound.unfailed launch state found unfailed).imp (·.cons move) id

theorem request : Sound (.request :: earlier) := by
  rcases (after earlier).request_cases with ⟨same, -⟩ | ⟨unstarted, unshared, begun⟩
  · exact sound.keep same
  · have now : after (.request :: earlier) =
        ⟨(after earlier).launches ++ [.inFlight], some (after earlier).launches.length,
          (after earlier).isStarted⟩ := congrArg Prod.fst begun
    have failed : ¬ .succeeded ∈ (after earlier).launches := by
      rw [← sound.started_iff, unstarted]
      exact Bool.false_ne_true
    refine ⟨?_, ?_, ?_⟩
    · intro launch shared
      rw [now] at shared ⊢
      obtain rfl := Option.some.inj shared
      simp
    · rw [now]
      simp [unstarted, failed]
    · intro launch state found unfailed
      rw [now] at found ⊢
      rw [List.getElem?_append] at found
      -- Nothing was shared, so an older launch that did not fail was displaced before.
      split at found
      · rcases sound.unfailed launch state found unfailed with
          displaced | ⟨-, shared | rfl⟩
        · exact Or.inl (displaced.cons _)
        · cases unshared.symm.trans shared
        · exact absurd (List.mem_of_getElem? found) failed
      · next beyond =>
          have newest : launch = (after earlier).launches.length := by
            have bound := (List.getElem?_eq_some_iff.mp found).1
            rw [List.length_singleton] at bound
            exact Nat.eq_of_lt_succ_of_not_lt (by omega) beyond
          subst newest
          exact Or.inr ⟨by simp, Or.inl rfl⟩

/-- Finishing a launch in flight keeps a history sound. -/
theorem finish {launch : LaunchId} (flying : (after earlier).launches[launch]? = some .inFlight)
    (outcome : Except String Unit) : Sound (.finish launch outcome :: earlier) := by
  have now : after (.finish launch outcome :: earlier) = _ := finish_eq _ launch outcome
  have bound := (List.getElem?_eq_some_iff.mp flying).1
  refine ⟨?_, ?_, ?_⟩
  · rw [now]
    simpa using sound.newest
  · rw [now]
    cases outcome with
    | ok value => simp [Except.isOk, Except.toBool, endState, List.mem_set bound]
    | error reason =>
        have others : .succeeded ∈ (after earlier).launches.set launch (.failed reason) ↔
            .succeeded ∈ (after earlier).launches := by
          simp only [List.mem_iff_getElem?, List.getElem?_set]
          refine exists_congr fun other => ?_
          by_cases same : launch = other
          · subst same
            rw [if_pos rfl, if_pos bound, flying]
            simp
          · rw [if_neg same]
        simpa [Except.isOk, Except.toBool, endState, others] using sound.started_iff
  · intro other state found unfailed
    rw [now] at found ⊢
    simp only [List.getElem?_set, List.length_set] at found ⊢
    split at found
    · next same =>
        subst same
        obtain rfl := Option.some.inj found
        rcases sound.unfailed launch .inFlight flying (by rintro ⟨_, ⟨⟩⟩) with
          displaced | ⟨newest, -⟩
        · exact Or.inl (displaced.cons _)
        · cases outcome with
          | ok value => exact Or.inr ⟨newest, Or.inr rfl⟩
          | error reason => exact absurd ⟨reason, rfl⟩ unfailed
    · exact (sound.unfailed other state found unfailed).imp (·.cons _) id

theorem collect (launch : LaunchId) : Sound (.collect launch :: earlier) := by
  rcases (after earlier).collect_cases launch with same | ⟨failed, forgotten⟩
  · exact sound.keep same
  · have now : after (.collect launch :: earlier) = { after earlier with current := none } :=
      forgotten
    refine ⟨?_, ?_, ?_⟩
    · intro other shared
      rw [now] at shared
      cases shared
    · rw [now]
      exact sound.started_iff
    · intro other state found unfailed
      rw [now] at found ⊢
      rcases sound.unfailed other state found unfailed with displaced | ⟨newest, shared | succeeded⟩
      · exact Or.inl (displaced.cons _)
      · -- The shared launch is forgotten; that displaces it if it has not ended yet.
        cases state with
        | inFlight => exact Or.inl ⟨launch, earlier, List.suffix_rfl, failed, shared, found⟩
        | succeeded => exact Or.inr ⟨newest, Or.inr rfl⟩
        | failed reason => exact absurd ⟨reason, rfl⟩ unfailed
      · exact Or.inr ⟨newest, Or.inr succeeded⟩

end Sound

/-- Legal histories are sound. -/
theorem Legal.sound {history : List LaunchMove} (legal : Legal history) : Sound history := by
  induction history with
  | nil => exact .nil
  | cons move earlier ih =>
      obtain ⟨ends, legalBefore⟩ := legal
      have sound := ih legalBefore
      cases move with
      | request => exact sound.request
      | finish launch outcome => exact sound.finish (ends launch outcome rfl) outcome
      | collect launch => exact sound.collect launch

/-- The past of a legal history is legal. -/
theorem Legal.of_suffix {history earlier : List LaunchMove} (legal : Legal history)
    (among : earlier <:+ history) : Legal earlier := by
  induction history with
  | nil => rwa [List.suffix_nil.mp among]
  | cons move rest ih =>
      rcases List.suffix_cons_iff.mp among with rfl | among
      · exact legal
      · exact ih legal.2 among

/-- Of the launches that did not fail all but the newest one were displaced. -/
theorem Sound.displaced {history : List LaunchMove} (sound : Sound history) {launch : LaunchId}
    {state : LaunchState} (found : (after history).launches[launch]? = some state)
    (unfailed : ¬ state.IsFailed) (older : launch + 1 < (after history).launches.length) :
    Displaced history launch := by
  rcases sound.unfailed launch state found unfailed with displaced | ⟨newest, -⟩
  · exact displaced
  · exact absurd newest older.ne

/-- A started server stays started, and nothing more is launched. -/
theorem started_move {launcher : Launcher} (started : launcher.isStarted) (move : LaunchMove) :
    (launcher.move move).isStarted ∧
      (launcher.move move).launches.length = launcher.launches.length := by
  cases move with
  | request =>
      rcases launcher.request_cases with ⟨same, -⟩ | ⟨unstarted, -, -⟩
      · rw [Launcher.move, same]
        exact ⟨started, rfl⟩
      · cases started.symm.trans unstarted
  | finish launch outcome =>
      rw [Launcher.move, finish_eq]
      exact ⟨by simp [started], List.length_set⟩
  | collect launch =>
      rcases launcher.collect_cases launch with same | ⟨-, forgotten⟩
      · rw [Launcher.move, same]
        exact ⟨started, rfl⟩
      · rw [Launcher.move, forgotten]
        exact ⟨started, rfl⟩

/-- A server that was once started is so ever after, and nothing more is launched. -/
theorem started_of_suffix {history earlier : List LaunchMove} (among : earlier <:+ history)
    (started : (after earlier).isStarted) :
    (after history).isStarted ∧
      (after history).launches.length = (after earlier).launches.length := by
  induction history with
  | nil => exact List.suffix_nil.mp among ▸ ⟨started, rfl⟩
  | cons move rest ih =>
      rcases List.suffix_cons_iff.mp among with rfl | among
      · exact ⟨started, rfl⟩
      · obtain ⟨startedBefore, same⟩ := ih among
        obtain ⟨startedNow, same'⟩ := started_move startedBefore move
        exact ⟨startedNow, same'.trans same⟩

/-- What is true of a validator that is started once, but for displaced launches. -/
structure StartsOnce (history : List LaunchMove) : Prop where
  /-- A launch that is in flight when another one begins was displaced. -/
  alone : ∀ earlier launch next, .request :: earlier <:+ history →
    (after earlier).request.2 = .begin next →
      (after earlier).launches[launch]? = some .inFlight → Displaced earlier launch
  /-- Of two launches that succeeded the first one was displaced. -/
  once : ∀ first second, first < second →
    (after history).launches[first]? = some .succeeded →
      (after history).launches[second]? = some .succeeded → Displaced history first
  /-- The validator counts as started exactly if a launch succeeded. -/
  started_iff : (after history).isStarted ↔ .succeeded ∈ (after history).launches
  /-- Once it is started it stays so, and no further launch begins. -/
  lasting : ∀ earlier, earlier <:+ history → (after earlier).isStarted →
    (after history).isStarted ∧
      (after history).launches.length = (after earlier).launches.length
  /-- The next request begins a launch beside one that was displaced before any succeeded. -/
  doubled : ∀ earlier failed launch, .collect failed :: earlier <:+ history →
    (after earlier).Displaces failed launch → (after earlier).isStarted = false →
      (after (.collect failed :: earlier)).request.2 = .begin (after earlier).launches.length ∧
        (after (.collect failed :: earlier)).launches[launch]? = some .inFlight

/-- **A validator is started once, but for displaced launches.** -/
theorem Legal.isStartedOnce {history : List LaunchMove} (legal : Legal history) :
    StartsOnce history where
  alone := by
    intro earlier launch next among begins flying
    have sound := (legal.of_suffix ((List.suffix_cons _ _).trans among)).sound
    rcases (after earlier).request_cases with ⟨-, begins'⟩ | ⟨unstarted, unshared, -⟩
    · exact absurd begins (begins' next)
    · rcases sound.unfailed launch .inFlight flying (by rintro ⟨_, ⟨⟩⟩) with
        displaced | ⟨-, shared | ⟨⟨⟩⟩⟩
      · exact displaced
      · cases unshared.symm.trans shared
  once := by
    intro first second older succeeded succeeded'
    have bound := (List.getElem?_eq_some_iff.mp succeeded').1
    exact legal.sound.displaced succeeded (by rintro ⟨_, ⟨⟩⟩) (Nat.lt_of_le_of_lt older bound)
  started_iff := legal.sound.started_iff
  lasting _ among started := started_of_suffix among started
  doubled := by
    intro earlier failed launch _ displaces unstarted
    obtain ⟨reason, hasFailed⟩ := displaces.hasFailed
    have now : after (.collect failed :: earlier) = { after earlier with current := none } := by
      change ((after earlier).collect failed).1 = _
      rw [collect, stateOf_eq_failed_iff.mpr hasFailed]
    rw [now]
    refine ⟨?_, displaces.inFlight⟩
    simp [request, unstarted]

/-- The first launch fails for two requests.  One of them learns of that at once, and a further
request begins a second launch; then the other one learns of it, and a third launch begins. -/
def lateRequest : List LaunchMove :=
  [.request, .collect 0, .request, .collect 0, .finish 0 (.error "missing"), .request, .request]

/-- A request that learns late of a failed launch has a third launch begin beside the second one,
and both may succeed. -/
theorem two_in_flight :
    Legal (.finish 2 (.ok ()) :: .finish 1 (.ok ()) :: lateRequest) ∧
      (after lateRequest).launches = [.failed "missing", .inFlight, .inFlight] ∧
      (after (.finish 2 (.ok ()) :: .finish 1 (.ok ()) :: lateRequest)).launches =
        [.failed "missing", .succeeded, .succeeded] ∧
      Displaced lateRequest 1 := by
  refine ⟨?_, by decide, by decide, ?_⟩
  · refine ⟨?_, ?_, nofun, nofun, nofun, nofun, ?_, nofun, nofun, trivial⟩ <;>
    · rintro _ _ ⟨⟩
      rfl
  · exact ⟨0, [.request, .collect 0, .finish 0 (.error "missing"), .request, .request],
      ⟨[.request], rfl⟩, ⟨_, rfl⟩, rfl, rfl⟩

/-- Holds if every launch that began was learned of by a request after its end. -/
def Learned (history : List LaunchMove) : Prop :=
  ∀ earlier launch, .request :: earlier <:+ history →
    (after earlier).request.2 = .begin launch →
      ∃ past, .collect launch :: past <:+ history ∧ (after past).stateOf launch ≠ .inFlight

/-- A move shares nothing else than before, or it begins a launch that is shared then. -/
theorem current_move (launcher : Launcher) (move : LaunchMove) :
    (launcher.move move).launches.length = launcher.launches.length ∧
        ((launcher.move move).current = launcher.current ∨ (launcher.move move).current = none) ∨
      move = .request ∧ launcher.request.2 = .begin launcher.launches.length ∧
        (launcher.move move).launches.length = launcher.launches.length + 1 ∧
          (launcher.move move).current = some launcher.launches.length := by
  cases move with
  | request =>
      rcases launcher.request_cases with ⟨same, -⟩ | ⟨-, -, begun⟩
      · rw [Launcher.move, same]
        exact .inl ⟨rfl, .inl rfl⟩
      · rw [Launcher.move, begun]
        exact .inr ⟨rfl, rfl, List.length_append, rfl⟩
  | finish launch outcome =>
      rw [Launcher.move, finish_eq]
      exact .inl ⟨List.length_set, .inl rfl⟩
  | collect launch =>
      rcases launcher.collect_cases launch with same | ⟨-, forgotten⟩
      · rw [Launcher.move, same]
        exact .inl ⟨rfl, .inl rfl⟩
      · rw [Launcher.move, forgotten]
        exact .inl ⟨rfl, .inr rfl⟩

/-- A launch that is shared was begun by a request. -/
theorem exists_request {history : List LaunchMove} {launch : LaunchId}
    (shared : (after history).current = some launch) :
    ∃ earlier, .request :: earlier <:+ history ∧ (after earlier).request.2 = .begin launch := by
  induction history with
  | nil => cases shared
  | cons move rest ih =>
      rw [after] at shared
      rcases (after rest).current_move move with ⟨-, same | none⟩ | ⟨rfl, begins, -, some⟩
      · obtain ⟨earlier, among, begins⟩ := ih (same ▸ shared)
        exact ⟨earlier, among.trans (List.suffix_cons move rest), begins⟩
      · cases none.symm.trans shared
      · obtain rfl := Option.some.inj (some.symm.trans shared)
        exact ⟨rest, List.suffix_rfl, begins⟩

/-- Where nothing is shared, a launch has to begin before one is shared again. -/
theorem current_of_suffix {history earlier : List LaunchMove} (among : earlier <:+ history)
    (unshared : (after earlier).current = none) :
    (after earlier).launches.length < (after history).launches.length ∨
      (after earlier).launches.length = (after history).launches.length ∧
        (after history).current = none := by
  induction history with
  | nil => exact .inr (List.suffix_nil.mp among ▸ ⟨rfl, unshared⟩)
  | cons move rest ih =>
      rcases List.suffix_cons_iff.mp among with rfl | among
      · exact .inr ⟨rfl, unshared⟩
      · rw [after]
        rcases (after rest).current_move move with ⟨length, same⟩ | ⟨-, -, length, -⟩
        · rw [length]
          refine (ih among).imp_right fun unchanged => ⟨unchanged.1, ?_⟩
          rcases same with same | same
          · exact same.trans unchanged.2
          · exact same
        · rw [length]
          rcases ih among with fewer | ⟨lengthBefore, -⟩
          · exact .inl (Nat.lt_succ_of_lt fewer)
          · exact .inl (lengthBefore ▸ Nat.lt_succ_self _)

/-- When all launches were learned of, the validator is started or nothing is shared. -/
theorem Legal.settled {history : List LaunchMove} (legal : Legal history)
    (learned : Learned history) : (after history).isStarted ∨ (after history).current = none := by
  cases shared : (after history).current with
  | none => exact .inr rfl
  | some launch =>
      obtain ⟨earlier, among, begins⟩ := exists_request shared
      obtain ⟨past, collected, ended⟩ := learned earlier launch among begins
      have within : past <:+ history := (List.suffix_cons _ past).trans collected
      cases state : (after past).stateOf launch with
      | inFlight => exact absurd state ended
      | succeeded =>
          have started : (after past).isStarted := by
            rw [(legal.of_suffix within).sound.started_iff]
            rw [stateOf, List.getD_eq_getElem?_getD] at state
            cases found : (after past).launches[launch]? with
            | none => simp [found] at state
            | some known =>
                rw [found] at state
                exact List.mem_of_getElem? (found.trans (congrArg some state))
          exact .inl (started_of_suffix within started).1
      | failed reason =>
          have bound := (List.getElem?_eq_some_iff.mp (stateOf_eq_failed_iff.mp state)).1
          have now : after (.collect launch :: past) = { after past with current := none } := by
            rw [after, Launcher.move, collect, state]
          -- Whatever is shared now was begun later, and so has a greater number.
          rcases current_of_suffix collected (congrArg current now) with fewer | unchanged
          · rw [now] at fewer
            have newest := legal.sound.newest launch shared
            exact absurd newest (Nat.ne_of_lt (Nat.lt_of_le_of_lt bound fewer))
          · cases unchanged.2.symm.trans shared

/-- When all launches were learned of, a request begins one unless the validator is started. -/
theorem Legal.begins {history : List LaunchMove} (legal : Legal history)
    (learned : Learned history) (unstarted : (after history).isStarted = false) :
    (after history).request.2 = .begin (after history).launches.length := by
  rcases legal.settled learned with started | unshared
  · cases unstarted.symm.trans started
  · rw [request, unstarted, unshared]
    rfl

/-- A launch that a request begins is the newest one. -/
theorem request_of_begin {launcher : Launcher} {launch : LaunchId}
    (begins : launcher.request.2 = .begin launch) :
    launch = launcher.launches.length ∧
      launcher.request.1.launches = launcher.launches ++ [.inFlight] := by
  rcases launcher.request_cases with ⟨-, begins'⟩ | ⟨-, -, begun⟩
  · exact absurd begins (begins' launch)
  · rw [begun] at begins ⊢
    exact ⟨(LaunchStep.begin.inj begins).symm, rfl⟩

/-- A launch that a request begins is in flight. -/
theorem flying_of_begin {launcher : Launcher} {launch : LaunchId}
    (begins : launcher.request.2 = .begin launch) :
    launcher.request.1.launches[launch]? = some .inFlight := by
  obtain ⟨rfl, launches⟩ := request_of_begin begins
  rw [launches]
  exact List.getElem?_concat_length

theorem length_finish (launcher : Launcher) (launch : LaunchId) (outcome : Except String Unit) :
    (launcher.finish launch outcome).launches.length = launcher.launches.length := by
  rw [finish_eq]
  exact List.length_set

theorem length_collect (launcher : Launcher) (launch : LaunchId) :
    (launcher.collect launch).1.launches.length = launcher.launches.length := by
  rcases launcher.collect_cases launch with same | ⟨-, forgotten⟩
  · rw [same]
  · rw [forgotten]

/-- A finished launch is in the state its outcome gives it. -/
theorem stateOf_finish {launcher : Launcher} {launch : LaunchId}
    (flying : launcher.launches[launch]? = some .inFlight) (outcome : Except String Unit) :
    (launcher.finish launch outcome).stateOf launch = endState outcome := by
  have bound := (List.getElem?_eq_some_iff.mp flying).1
  rw [finish_eq, stateOf, List.getD_eq_getElem?_getD, List.getElem?_set_self bound]
  rfl

/-- Who looks what became of a launch that has ended learns how. -/
theorem collect_of_ended {launcher : Launcher} {launch : LaunchId} {outcome : Except String Unit}
    (ended : launcher.stateOf launch = endState outcome) :
    (launcher.collect launch).2 = outcome := by
  cases outcome with
  | ok value => rw [collect, ended, endState]
  | error reason => rw [collect, ended, endState]

theorem length_launched {history : List LaunchMove} {launch : LaunchId}
    (begins : (after history).request.2 = .begin launch) (outcome : Except String Unit) :
    (after (.collect launch :: .finish launch outcome :: .request :: history)).launches.length =
      launch + 1 := by
  obtain ⟨newest, launches⟩ := request_of_begin begins
  calc
    _ = (after history).request.1.launches.length :=
      (length_collect _ launch).trans (length_finish _ launch outcome)
    _ = (after history).launches.length + 1 := by rw [launches, List.length_append]; rfl
    _ = launch + 1 := by rw [newest]

/-- A request that begins a launch and learns of its end leaves no launch unlearned. -/
theorem Legal.launched {history : List LaunchMove} {launch : LaunchId} (legal : Legal history)
    (learned : Learned history) (begins : (after history).request.2 = .begin launch)
    (outcome : Except String Unit) :
    Legal (.collect launch :: .finish launch outcome :: .request :: history) ∧
      Learned (.collect launch :: .finish launch outcome :: .request :: history) := by
  have flying : (after (.request :: history)).launches[launch]? = some .inFlight :=
    flying_of_begin begins
  refine ⟨⟨nofun, ?_, nofun, legal⟩, ?_⟩
  · rintro other result ⟨⟩
    exact flying
  · intro earlier other among begins'
    have older : .request :: earlier <:+ .request :: history := by
      rcases List.suffix_cons_iff.mp among with ⟨⟨⟩⟩ | among
      rcases List.suffix_cons_iff.mp among with ⟨⟨⟩⟩ | among
      exact among
    rcases List.suffix_cons_iff.mp older with same | among
    · obtain ⟨-, rfl⟩ := List.cons.inj same
      obtain rfl := LaunchStep.begin.inj (begins.symm.trans begins')
      refine ⟨.finish launch outcome :: .request :: earlier, List.suffix_rfl, ?_⟩
      rw [after, Launcher.move, stateOf_finish flying]
      cases outcome <;> nofun
    · obtain ⟨past, collected, landed⟩ := learned earlier other among begins'
      exact ⟨past, collected.trans ⟨[_, _, _], rfl⟩, landed⟩

end Launcher

end ModelAssist
