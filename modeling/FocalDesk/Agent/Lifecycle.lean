import FocalDesk.Agent.Steps

/-!
The protocol of a single agent run: its recorded state, the task that executes it, its
plans, and the confirmations and cancellations in flight for it. What other runs do to
it is that they may evict it and sweep its plans.
-/
namespace FocalDesk

structure RunView where
  issued : Prop
  state : Option AgentRunState
  requested : Prop
  leased : Prop
  sender : Option Bool
  stage : Option ExecutionStage
  plans : Set String
  confirming : ℕ → Option ConfirmationStage
  cancelling : ℕ → Option CancellationStage
  log : List Observation

/-- What a step of the service means for one run. -/
inductive RunLabel where
  | other
  | register
  | restart
  | sweep
  | advance
  | abandon
  | settle
  | acquire
  | poll
  | tool
  | finish
  | propose
  | publish
  | take
  | confirm
  | confirmedTool
  | resolve
  | send
  | settleCancel
  | failCancel

namespace RunView

/-- The run in a new state, if it is recorded. -/
def record (v : RunView) (state : AgentRunState) : RunView :=
  { v with state := v.state.map fun _ => state }

def goto (v : RunView) (stage : ExecutionStage) : RunView := { v with stage := some stage }

def confirm (v : RunView) (call : ℕ) (stage : Option ConfirmationStage) : RunView :=
  { v with confirming := Function.update v.confirming call stage }

def cancel (v : RunView) (call : ℕ) (stage : Option CancellationStage) : RunView :=
  { v with cancelling := Function.update v.cancelling call stage }

def observe (v : RunView) (observation : Observation) : RunView :=
  { v with log := v.log ++ [observation] }

end RunView

/-- How a confirmation moves before it resolves its run. -/
inductive ConfirmationMove : ConfirmationStage → ConfirmationStage → Prop
  | check {stage} (h : stage = .prompting ∨ ∃ error, stage = .resolving .failed error ∨
      stage = .resolving .completed error) : ConfirmationMove .taken stage
  | refused {error} : ConfirmationMove .prompting (.resolving .failed error)
  | approved : ConfirmationMove .prompting .approved
  | unauthorized {error} : ConfirmationMove .approved (.resolving .failed error)
  | executed {error} : ConfirmationMove .executing (.resolving .completed error)
  | failed {error} : ConfirmationMove .executing (.resolving .failed error)

/-- One step of the protocol of `runId`, in a service that has tools or has none. -/
inductive RunStep (tools : Bool) (runId : String) (v : RunView) : RunLabel → RunView → Prop
  -- Steps of the rest of the service.
  | other {issued : Prop} (h : v.issued → issued) : RunStep tools runId v .other { v with issued }
  | evicted {issued : Prop} {state requested leased} (hstate : v.state = some state)
      (hterminal : state.isTerminal = true) (h : v.issued → issued) :
      RunStep tools runId v .other { v with issued, state := none, requested, leased }
  | swept {issued : Prop} {plans : Set String} (hplans : plans ⊆ v.plans) (h : v.issued → issued) :
      RunStep tools runId v .sweep { v with issued, plans }
  | restarted {state requested} (hstate : ∀ s, state = some s → s.isTerminal = true ∧ v.issued) :
      RunStep tools runId v .restart
        { v with
          state, requested, leased := False, sender := none, stage := none, plans := ∅,
          confirming := fun _ => none, cancelling := fun _ => none }
  -- Registration.
  | unregistered {leased} (h : ¬ v.issued) :
      RunStep tools runId v .register { v with issued := True, leased }
  | registered {state sender} (h : ¬ v.issued) (hstate : state ≠ .awaitingConfirmation)
      (hsender : sender = none ∨ sender = some false) : RunStep tools runId v .register
        { v with
          issued := True, state := some state, requested := True, leased := True, sender }
  | spawned (h : ¬ v.issued) : RunStep tools runId v .register
        { v with
          issued := True, state := some .waitingForPermission, requested := True, leased := True,
          sender := some false, stage := some .starting }
  -- The task.
  | started (h : v.stage = some .starting) (htools : tools = true) :
      RunStep tools runId v .advance (v.goto .permission)
  | notStarted (h : v.stage = some .starting) : RunStep tools runId v .abandon (v.goto .returned)
  | granted (h : v.stage = some .permission) : RunStep tools runId v .advance (v.goto .permitted)
  | denied (h : v.stage = some .permission) :
      RunStep tools runId v .settle ((v.record .failed).goto .returning)
  | observedCancel (h : v.stage = some .permitted) (hsender : v.sender = some true) :
      RunStep tools runId v .settle ((v.record .cancelled).goto .returning)
  | passed (h : v.stage = some .permitted) (hsender : v.sender ≠ some true) :
      RunStep tools runId v .advance (v.goto .enqueuing)
  | enqueued (h : v.stage = some .enqueuing) :
      RunStep tools runId v .advance ((v.record .queued).goto .queued)
  | notEnqueued (h : v.stage = some .enqueuing) :
      RunStep tools runId v .abandon ((v.record .queued).goto .returning)
  | cancelledQueued (h : v.stage = some .queued) (hsender : v.sender = some true) :
      RunStep tools runId v .settle ((v.record .cancelled).goto .returning)
  | acquired (h : v.stage = some .queued) : RunStep tools runId v .acquire (v.goto .admitted)
  | admitted (h : v.stage = some .admitted) :
      RunStep tools runId v .advance ((v.record .running).goto (.running false none))
  | notAdmitted (h : v.stage = some .admitted) :
      RunStep tools runId v .abandon ((v.record .running).goto .returning)
  | polled {calling} (h : v.stage = some (.running false calling)) :
      RunStep tools runId v .poll (v.goto (.running true calling))
  | pending {calling} (h : v.stage = some (.running true calling)) :
      RunStep tools runId v .advance (v.goto (.running false calling))
  | planned (h : v.stage = some (.running true none)) : RunStep tools runId v .advance v
  | calledTool {tool : String} {arguments} (h : v.stage = some (.running true none)) :
      RunStep tools runId v .tool ((v.observe (.toolExecuted runId tool)).goto
        (.running true (some (tool, arguments))))
  | toolReturned {calling} (h : v.stage = some (.running true calling)) :
      RunStep tools runId v .advance (v.goto (.running true none))
  | finished {calling result} (h : v.stage = some (.running true calling))
      (hresult : ∀ response, result = .ok response → response.confirmation = none) :
      RunStep tools runId v .finish (v.goto (.finished result))
  | timedOut {calling} (h : v.stage = some (.running true calling)) :
      RunStep tools runId v .abandon (v.goto .returning)
  | cancelledRunning {calling} (h : v.stage = some (.running false calling))
      (hsender : v.sender = some true) :
      RunStep tools runId v .settle ((v.record .cancelled).goto .returning)
  | concludedError {error} (h : v.stage = some (.finished (.error error))) :
      RunStep tools runId v .settle ((v.record .failed).goto .returning)
  | concluded {response : AgentResponse} (h : v.stage = some (.finished (.ok response))) :
      RunStep tools runId v .advance (v.goto (.publishing response))
  | tableFull {plans : Set String} {result} (h : v.stage = some (.finished result))
      (hplans : plans ⊆ v.plans) :
      RunStep tools runId v .settle (({ v with plans }.record .failed).goto .returning)
  | proposed {planId : String} {response : AgentResponse} {issued : Prop} {plans : Set String}
      {result} (h : v.stage = some (.finished result)) (hplans : plans ⊆ v.plans)
      (hconfirmation : response.confirmation.isSome = true) (hissued : v.issued → issued) :
      RunStep tools runId v .propose
        ({ v with issued, plans := insert planId plans }.goto (.publishing response))
  | published {response : AgentResponse} (h : v.stage = some (.publishing response)) :
      RunStep tools runId v .publish ((v.record (Service.finalState response)).goto .returning)
  | dropped (h : v.stage = some .returning) :
      RunStep tools runId v .advance ({ v with sender := none }.goto .returned)
  -- Confirmations.
  | taken {call : ℕ} {planId : String} (hplan : planId ∈ v.plans)
      (hcall : v.confirming call = none) :
      RunStep tools runId v .take
        ({ v with plans := v.plans \ {planId} }.confirm call (some .taken))
  | moved {call : ℕ} {stage stage'} (hcall : v.confirming call = some stage)
      (hmove : ConfirmationMove stage stage') :
      RunStep tools runId v .confirm (v.confirm call (some stage'))
  | ended {call : ℕ} (hcall : v.confirming call = some .approved) (htools : tools = false) :
      RunStep tools runId v .confirm (v.confirm call none)
  | calledConfirmed {call : ℕ} {tool : String} (hcall : v.confirming call = some .approved) :
      RunStep tools runId v .confirmedTool
        ((v.observe (.toolExecuted runId tool)).confirm call (some .executing))
  | resolved {call : ℕ} {state error} (hcall : v.confirming call = some (.resolving state error)) :
      RunStep tools runId v .resolve ((v.record state).confirm call none)
  -- Cancellations.
  | sent (hsender : v.sender.isSome = true) (hstage : ∃ stage, v.stage = some stage ∧
      stage ≠ .returned) : RunStep tools runId v .send
        ({ v with sender := some true }.observe (.cancelReturned runId true))
  | unreceived : RunStep tools runId v .other (v.observe (.cancelReturned runId false))
  | absent {call : ℕ} (hsender : v.sender = none) (hcall : v.cancelling call = none) :
      RunStep tools runId v .other (v.cancel call (some .absent))
  | lookedAwaiting {call : ℕ} (hcall : v.cancelling call = some .absent)
      (hstate : v.state = some .awaitingConfirmation) :
      RunStep tools runId v .other (v.cancel call (some .awaiting))
  | looked {call : ℕ} (hcall : v.cancelling call = some .absent)
      (hstate : v.state ≠ some .awaitingConfirmation) :
      RunStep tools runId v .other ((v.cancel call none).observe (.cancelReturned runId false))
  | purged {call : ℕ} (hcall : v.cancelling call = some .awaiting) :
      RunStep tools runId v .other ({ v with plans := ∅ }.cancel call (some .purged))
  | cancelSettled {call : ℕ} (hcall : v.cancelling call = some .purged) :
      RunStep tools runId v .settleCancel
        (((v.record .cancelled).cancel call none).observe (.cancelReturned runId true))
  | cancelFailed {call : ℕ} (hcall : v.cancelling call = some .purged) :
      RunStep tools runId v .failCancel ((v.record .cancelled).cancel call none)

theorem RunStep.same {ts : Bool} {rid : String} {v : RunView} :
    RunStep ts rid v .other v :=
  RunStep.other (v := v) id

theorem RunStep.issued_mono {ts : Bool} {rid : String} {v v' : RunView} {l : RunLabel}
    (h : RunStep ts rid v l v') (hv : v.issued) : v'.issued := by
  cases h with
  | other h => exact h hv
  | evicted _ _ h => exact h hv
  | swept _ h => exact h hv
  | proposed _ _ _ h => exact h hv
  | unregistered => trivial
  | registered => trivial
  | spawned => trivial
  | _ => exact hv

theorem RunStep.issued_of_register {ts : Bool} {rid : String} {v v' : RunView}
    (h : RunStep ts rid v .register v') : v'.issued := by
  cases h <;> trivial

end FocalDesk
