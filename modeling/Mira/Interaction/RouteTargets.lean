import Mira.Interaction.Ledger

/-!
The targets of a routing decision.

A suggestion of the host is adopted only for a task of the principal that is in the state the
intent asks for, and the structural rules pick their tasks from the state, so that a decision
never names a task of another principal, revives a settled one or stops one that has ended.
-/

namespace Mira.Interaction
open Mira Bytes

namespace RoutingDecision

/-- The decision names a task of the principal by its session and its id. -/
def Targets (decision : RoutingDecision) (state : PrincipalState) (terminal : Bool) : Prop :=
  ∃ task ∈ state.tasks, task.state.isTerminal = terminal ∧
    decision.sessionId = some task.sessionId ∧ decision.taskId = some task.taskId

def Untargeted (decision : RoutingDecision) : Prop :=
  decision.sessionId = none ∧ decision.taskId = none

/-- What the intent of a decision says about its target. -/
def Aimed (decision : RoutingDecision) (state : PrincipalState) : Prop :=
  match decision.intent with
  | .continueCurrent | .supplementTask | .pauseTask | .cancelTask => decision.Targets state false
  | .resumeTask => decision.Targets state true
  | .clarify => decision.Untargeted ∧ ∃ text, decision.clarification = some text
  | .newTask | .reject => decision.Untargeted

end RoutingDecision

/-- The state has what the suggestion asks for. Work on a settled task is usable too: it
becomes a new task that resumes the settled one. -/
def RouteSuggestion.Usable (proposal : RouteSuggestion) (state : PrincipalState) : Prop :=
  match proposal.intent with
  | .newTask | .clarify | .reject => True
  | .continueCurrent | .supplementTask =>
      ∃ task ∈ state.tasks, proposal.taskId = some task.taskId
  | .pauseTask | .cancelTask =>
      ∃ task ∈ state.tasks, proposal.taskId = some task.taskId ∧ task.state.isTerminal = false
  | .resumeTask =>
      ∃ task ∈ state.tasks, proposal.taskId = some task.taskId ∧ task.state.isTerminal = true

/-- The input with this id belongs to a task of the principal. -/
def PrincipalState.KnowsInput (state : PrincipalState) (inputId : Bytes) : Prop :=
  ∃ task ∈ state.tasks, inputId ∈ task.inputIds

section
variable {state : PrincipalState}

variable {task : PrincipalTaskEntry}

theorem findTask_found {taskId : TaskId} (found : findTask state taskId = some task) :
    task ∈ state.tasks ∧ task.taskId = taskId :=
  ⟨List.mem_of_find?_eq_some found, by simpa using List.find?_some found⟩

theorem taskOfInput_found {inputId : Bytes} (found : taskOfInput state inputId = some task) :
    task ∈ state.tasks ∧ inputId ∈ task.inputIds :=
  ⟨List.mem_of_find?_eq_some found, by simpa using List.find?_some found⟩

variable {proposal : RouteSuggestion}

theorem suggested_task (found : proposal.taskId.bind (findTask state) = some task) :
    task ∈ state.tasks ∧ proposal.taskId = some task.taskId := by
  obtain ⟨taskId, named, found⟩ := Option.bind_eq_some_iff.mp found
  obtain ⟨held, same⟩ := findTask_found found
  exact ⟨held, by rw [named, same]⟩

variable {decision : RoutingDecision}

theorem adoptSuggestion_usable (adopted : adoptSuggestion state proposal = some decision) :
    proposal.Usable state := by
  have named : ∀ {next : PrincipalTaskEntry → Option RoutingDecision},
      (proposal.taskId.bind (findTask state)).bind next = some decision →
      ∃ task ∈ state.tasks, proposal.taskId = some task.taskId ∧ next task = some decision := by
    intro next adopted
    obtain ⟨task, found, decided⟩ := Option.bind_eq_some_iff.mp adopted
    obtain ⟨held, same⟩ := suggested_task found
    exact ⟨task, held, same, decided⟩
  simp only [adoptSuggestion] at adopted
  simp only [RouteSuggestion.Usable]
  cases asked : proposal.intent with
  | newTask | clarify | reject => trivial
  | continueCurrent | supplementTask =>
      rw [asked] at adopted
      obtain ⟨task, held, same, _⟩ := named adopted
      exact ⟨task, held, same⟩
  | pauseTask | cancelTask =>
      rw [asked] at adopted
      obtain ⟨task, held, same, decided⟩ := named adopted
      refine ⟨task, held, same, ?_⟩
      simp only [adoptForTask, asked] at decided
      split at decided
      · cases decided
      · next live => simpa using live
  | resumeTask =>
      rw [asked] at adopted
      obtain ⟨task, held, same, decided⟩ := named adopted
      refine ⟨task, held, same, ?_⟩
      split at decided
      · next settled => exact settled
      · cases decided

theorem decideFor_targets (held : task ∈ state.tasks) (intent : RouteIntent) (rationale : Bytes) :
    (decideFor intent task rationale).Targets state task.state.isTerminal :=
  ⟨task, held, rfl, rfl, rfl⟩

theorem adoptForTask_aimed (held : task ∈ state.tasks)
    (onTask : proposal.intent = .continueCurrent ∨ proposal.intent = .supplementTask ∨
      proposal.intent = .pauseTask ∨ proposal.intent = .cancelTask)
    (adopted : adoptForTask proposal task = some decision) : decision.Aimed state := by
  simp only [adoptForTask] at adopted
  split at adopted
  · next settled =>
      split at adopted
      · cases adopted
        have aimed := decideFor_targets held .resumeTask
          (ascii "the suggested task is terminal; the input resumes it through a new task")
        rw [settled] at aimed
        exact aimed
      · cases adopted
  · next live =>
      have aimed := decideFor_targets held proposal.intent (rationaleOr proposal.rationale
        "the suggested target is live and owned by the principal")
      rw [Bool.eq_false_iff.mpr live] at aimed
      cases adopted
      rcases onTask with asked | asked | asked | asked
      all_goals
        rw [asked] at aimed ⊢
        exact aimed

theorem adoptSuggestion_aimed (adopted : adoptSuggestion state proposal = some decision) :
    decision.Aimed state := by
  simp only [adoptSuggestion] at adopted
  split at adopted
  case h_5 =>
      obtain ⟨task, found, decided⟩ := Option.bind_eq_some_iff.mp adopted
      have aimed := decideFor_targets (suggested_task found).1 .resumeTask
        (rationaleOr proposal.rationale
          "the suggested task is settled; the input resumes it through a new task")
      split at decided
      · next settled =>
          cases decided
          rw [settled] at aimed
          exact aimed
      · cases decided
  case h_6 | h_8 =>
      cases adopted
      exact ⟨rfl, rfl⟩
  case h_7 =>
      cases adopted
      exact ⟨⟨rfl, rfl⟩, _, rfl⟩
  all_goals
    obtain ⟨task, found, decided⟩ := Option.bind_eq_some_iff.mp adopted
    exact adoptForTask_aimed (suggested_task found).1 (by simp [*]) decided

theorem decideReply_aimed {replyTo : Bytes} (decided : decideReply state replyTo = some decision) :
    decision.Aimed state := by
  obtain ⟨task, found, rfl⟩ := Option.map_eq_some_iff.mp decided
  have held := (taskOfInput_found found).1
  split
  · next settled =>
      have aimed := decideFor_targets held .resumeTask
        (ascii "the input replies to a settled task; it resumes it through a new task")
      rw [settled] at aimed
      exact aimed
  · next live =>
      have aimed := decideFor_targets held .continueCurrent
        (ascii "the input replies to a known live task")
      rw [Bool.eq_false_iff.mpr live] at aimed
      exact aimed

theorem decideLive_aimed (state : PrincipalState) : (decideLive (liveTasks state)).Aimed state := by
  have live : ∀ task ∈ liveTasks state, task ∈ state.tasks ∧ task.state.isTerminal = false := by
    intro task listed
    simpa [liveTasks] using listed
  simp only [decideLive]
  split
  · exact ⟨rfl, rfl⟩
  · next only listed =>
      obtain ⟨held, alive⟩ := live only (by rw [listed]; exact List.mem_cons_self)
      have aimed := decideFor_targets held .continueCurrent
        (ascii "the principal has exactly one live task; the input continues it")
      rw [alive] at aimed
      exact aimed
  · exact ⟨⟨rfl, rfl⟩, _, rfl⟩

theorem decideRoute_aimed (envelope : InputEnvelope) (state : PrincipalState)
    (suggestion : Option RouteSuggestion) :
    (decideRoute envelope state suggestion).Aimed state := by
  simp only [decideRoute]
  cases adopted : suggestion.bind (adoptSuggestion state) with
  | some decision =>
      obtain ⟨proposal, _, taken⟩ := Option.bind_eq_some_iff.mp adopted
      exact adoptSuggestion_aimed taken
  | none =>
      rw [Option.none_or]
      cases replied : envelope.replyTo.bind (decideReply state) with
      | some decision =>
          obtain ⟨replyTo, _, taken⟩ := Option.bind_eq_some_iff.mp replied
          exact decideReply_aimed taken
      | none => exact decideLive_aimed state

end

theorem decideRoute_live {envelope : InputEnvelope} {state : PrincipalState}
    {suggestion : Option RouteSuggestion}
    (unusable : ∀ proposal ∈ suggestion, ¬ proposal.Usable state)
    (unknown : ∀ replyTo ∈ envelope.replyTo, ¬ state.KnowsInput replyTo) :
    decideRoute envelope state suggestion = decideLive (liveTasks state) := by
  have refused : suggestion.bind (adoptSuggestion state) = none := by
    rw [Option.bind_eq_none_iff]
    intro proposal offered
    cases adopted : adoptSuggestion state proposal with
    | none => rfl
    | some decision => exact absurd (adoptSuggestion_usable adopted) (unusable proposal offered)
  have unanswered : envelope.replyTo.bind (decideReply state) = none := by
    rw [Option.bind_eq_none_iff]
    intro replyTo named
    cases found : taskOfInput state replyTo with
    | none => simp only [decideReply, found, Option.map_none]
    | some task => exact absurd ⟨task, taskOfInput_found found⟩ (unknown replyTo named)
  rw [decideRoute, refused, unanswered, Option.none_or, Option.getD_none]

theorem decideLive_intent (live : List PrincipalTaskEntry) :
    ((decideLive live).intent = .newTask ↔ live.length = 0) ∧
    ((decideLive live).intent = .continueCurrent ↔ live.length = 1) ∧
    ((decideLive live).intent = .clarify ↔ 2 ≤ live.length) := by
  cases live with
  | nil => simp [decideLive]
  | cons first rest =>
      cases rest with
      | nil => simp [decideLive, decideFor]
      | cons second rest => simp [decideLive]

/-- Routing targets are owned and in the state their intent asks for, the id that is named is that
of one task, and the number of live tasks decides where neither the host nor a reply names one. -/
theorem routing_targets (envelope : InputEnvelope) (state : PrincipalState)
    (suggestion : Option RouteSuggestion)
    (distinct : (state.tasks.map fun task => task.taskId).Nodup) :
    (decideRoute envelope state suggestion).Aimed state ∧
    (∀ first ∈ state.tasks, ∀ second ∈ state.tasks,
      (decideRoute envelope state suggestion).taskId = some first.taskId →
      (decideRoute envelope state suggestion).taskId = some second.taskId → first = second) ∧
    ((∀ proposal ∈ suggestion, ¬ proposal.Usable state) →
      (∀ replyTo ∈ envelope.replyTo, ¬ state.KnowsInput replyTo) →
      ((decideRoute envelope state suggestion).intent = .newTask ↔
        (liveTasks state).length = 0) ∧
      ((decideRoute envelope state suggestion).intent = .continueCurrent ↔
        (liveTasks state).length = 1) ∧
      ((decideRoute envelope state suggestion).intent = .clarify ↔
        2 ≤ (liveTasks state).length)) := by
  refine ⟨decideRoute_aimed envelope state suggestion, ?_, ?_⟩
  · intro first held second present named named'
    rw [named, Option.some.injEq] at named'
    exact List.inj_on_of_nodup_map distinct held present named'
  intro unusable unknown
  rw [decideRoute_live unusable unknown]
  exact decideLive_intent (liveTasks state)

def twoLiveTasks : PrincipalState :=
  { tasks := [{ taskId := .filled 1, sessionId := .filled 9 },
      { taskId := .filled 2, sessionId := .filled 9 }] }

def plainInput : InputEnvelope :=
  { principal := { tenantId := .filled 1, userId := .filled 2 }, inputId := ascii "i" }

theorem routing_targets_live : (decideRoute plainInput twoLiveTasks none).intent = .clarify :=
  ((routing_targets plainInput twoLiveTasks none (by decide)).2.2 (by simp)
    (by simp [plainInput])).2.2.mpr (by decide)

end Mira.Interaction
