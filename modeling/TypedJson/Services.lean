import TypedJson.Checker
import TypedJson.Request
import TypedJson.TypeSource

/-! # Services

Services carry out the calls of requests on a state of their own. With services, a request runs to its end
without another request in between.
-/

namespace TypedJson

/-- What carries out calls, and what a request sees when it looks around. -/
structure Services (σ : Type) where
  perform : Call → σ → σ × Reply
  surroundings : σ → Surroundings

namespace Services

variable {σ : Type} (services : Services σ)

structure Finished (σ : Type) where
  state : σ
  workspace : Workspace
  events : List Event
  answer : Option Answer

/-- Carries out the calls of a request, up to a number of calls. -/
def finish : Nat → σ → Turn → Finished σ
  | 0, state, turn => ⟨state, turn.workspace, turn.events, none⟩
  | calls + 1, state, turn =>
    match turn.request, turn.request.call? with
    | .finished answer, _ => ⟨state, turn.workspace, turn.events, some answer⟩
    | _, none => ⟨state, turn.workspace, turn.events, none⟩
    | request, some call =>
      let (state, reply) := services.perform call state
      let rest := finish calls state
        (request.resume (services.surroundings state) turn.workspace reply)
      { rest with events := turn.events ++ rest.events }

/-- A validation writes, checks and removes an artifact, or resolves a type, and then ends. -/
def validationCalls : Nat := 4

def validate (state : σ) (workspace : Workspace) (document : Document) : Finished σ :=
  services.finish validationCalls state (workspace.validate workspace.configuration.mode document)

/-- The files of a tree, with a checker that runs on them and without a language service. -/
def ofFiles (checker : CheckerCommand) : Services FileTree where
  perform call tree := match call with
    | .write path content =>
      match tree.write path (Text.toBytes content) with
      | .ok tree => (tree, .finished true)
      | .error _ => (tree, .finished false)
    | .remove path =>
      match tree.remove path with
      | .ok tree => (tree, .finished true)
      | .error _ => (tree, .finished false)
    | .check roots =>
      let (tree, report) := checker.check tree roots
      (tree, .report report)
    | .resolve directory tag => (tree, .resolved (tag.resolve tree directory))
    | .completions _ _ => (tree, .items [])
    | .hovers _ _ => (tree, .hovers [])
    | .openView _ | .closeView _ | .sleep _ => (tree, .finished true)
  surroundings tree := ⟨fun _ => false, fun _ _ => true, tree.samePlace⟩

end Services
end TypedJson
