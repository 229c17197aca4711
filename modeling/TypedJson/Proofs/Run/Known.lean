import TypedJson.Proofs.Run.Lived

/-! # Which artifacts are known

The requests of a run share the set of indexed paths. A request adds the path of its artifact when a view of
it has been closed, and nothing is taken out again. So the record tells what is in the set: the paths of which
a view has been closed, by whichever request.
-/

namespace TypedJson

section Indexed

variable {workspace : Workspace} {surroundings : Surroundings} {staged : Staged}

/-- The indexed paths after a request has got a reply. A request adds its artifact when it has closed the
view. -/
def Request.learned (indexed : IndexedSet) : Request → IndexedSet
  | indexing staged _ _ .closing => indexed.insert staged.artifact.path.components
  | _ => indexed

theorem Workspace.cleanUp_workspace {events : List Event} {answer : Answer} :
    (workspace.cleanUp staged events answer).workspace = workspace := by
  unfold Workspace.cleanUp
  split <;> rfl

theorem Workspace.afterIndexing_indexed {position : Position} {wait : IndexWait} {stretch : Indexing.Stretch} :
    (workspace.afterIndexing staged position wait stretch).workspace.indexed = stretch.indexed := by
  unfold Workspace.afterIndexing
  cases stretch.next <;> rfl

theorem Workspace.afterWrite_indexed {purpose : Purpose} {success : Bool} :
    (workspace.afterWrite surroundings staged purpose success).workspace.indexed = workspace.indexed := by
  unfold Workspace.afterWrite
  split
  · rfl
  split
  · rw [cleanUp_workspace]
  cases purpose with
  | completion position => rw [afterIndexing_indexed, Indexing.start_indexed]
  | _ => rfl

theorem Request.resume_indexed {request : Request} {call : Call} {reply : Reply}
    (calls : request.call? = some call) (fits : reply.fits call = true) :
    (request.resume surroundings workspace reply).workspace.indexed = request.learned workspace.indexed := by
  cases request with
  | writing staged purpose =>
    cases calls
    cases reply <;> first | exact Workspace.afterWrite_indexed | exact (Bool.false_ne_true fits).elim
  | indexing staged position wait step =>
    cases calls
    cases reply with
    | finished success =>
      rw [resume, Workspace.afterIndexing_indexed, Indexing.resume_indexed]
      cases step <;> rfl
    | _ => cases step <;> exact (Bool.false_ne_true fits).elim
  | checking staged =>
    cases reply with
    | report result =>
      unfold resume Workspace.afterCheck
      cases result with
      | error error => rw [Workspace.cleanUp_workspace]; rfl
      | ok findings => simp only; split <;> rw [Workspace.cleanUp_workspace] <;> rfl
    | _ => rfl
  | resolving staged value =>
    cases reply with
    | resolved result =>
      unfold resume Workspace.afterResolve
      cases result with
      | error error => rfl
      | ok type => simp only; split <;> rfl
    | _ => rfl
  | completing staged position =>
    cases reply <;> first | rfl | (rw [resume, Workspace.cleanUp_workspace]; rfl)
  | hovering staged position =>
    cases reply <;> first | rfl | (rw [resume, Workspace.cleanUp_workspace]; rfl)
  | removing | completingUntagged | finished => cases reply <;> rfl

theorem Request.cancel_indexed (workspace : Workspace) (request : Request) :
    (request.cancel workspace).indexed = workspace.indexed := by cases request <;> rfl

theorem Demand.start_indexed (workspace : Workspace) (demand : Demand) :
    (demand.start workspace).workspace.indexed = workspace.indexed := by
  have issued (lane : Lane) : (workspace.issue lane).indexed = workspace.indexed := by
    rcases lane with ⟨_ | _, key⟩ <;> rfl
  have starts := demand.starts workspace
  generalize demand.start workspace = turn at starts ⊢
  cases starts with
  | aside | ask => rfl
  | malformed draws | write draws | resolve draws =>
    simp only [Turn.finish, Turn.await, draws.after, issued]

/-- What a reply adds to the indexed paths is told by the call that it is for. -/
theorem Request.mem_learned_iff {request : Request} {call : Call} {indexed : IndexedSet} {key : List Component}
    (calls : request.call? = some call) :
    key ∈ request.learned indexed ↔ key ∈ indexed ∨ ∃ path, call = .closeView path ∧ path.components = key := by
  cases request with
  | indexing staged position wait step =>
    cases calls
    cases step with
    | closing => simp [learned, Indexing.call, or_comm, eq_comm]
    | opening | sleeping => simp [learned, Indexing.call]
  | finished => cases calls
  | _ =>
    cases calls
    simp [learned]

end Indexed

namespace Run

variable {configuration : Configuration} {record more : List Entry} {id : ℕ} {path : Path} {turn : Turn}

/-- A view of a path has been closed, whatever the path was called then. -/
def Closed (path : Path) (record : List Entry) : Prop :=
  ∃ id closed success, .returned id (.closeView closed) success ∈ record ∧ closed.components = path.components

theorem closed_append : Closed path (record ++ more) ↔ Closed path record ∨ Closed path more := by
  constructor
  · rintro ⟨id, closed, success, member, same⟩
    rcases List.mem_append.mp member with early | late
    · exact .inl ⟨id, closed, success, early, same⟩
    · exact .inr ⟨id, closed, success, late, same⟩
  · rintro (⟨id, closed, success, member, same⟩ | ⟨id, closed, success, member, same⟩)
    · exact ⟨id, closed, success, List.mem_append_left _ member, same⟩
    · exact ⟨id, closed, success, List.mem_append_right _ member, same⟩

/-- What a request does in a stretch closes nothing: that takes a reply. -/
theorem not_closed_trail : ¬ Closed path (trail id turn) := by
  rintro ⟨other, closed, success, member, -⟩
  rcases List.mem_append.mp member with happened | last
  · obtain ⟨event, -, same⟩ := List.mem_map.mp happened
    cases same
  · cases finished : turn.request <;> simp [finished] at last

theorem not_closed_begun {demand : Demand} : ¬ Closed path (.began id demand :: trail id turn) := by
  rw [← List.singleton_append, closed_append, not_or]
  exact ⟨by simp [Closed], not_closed_trail⟩

/-- After a reply to a close, a view is closed. -/
theorem closed_returned_iff {call : Call} {success : Bool} :
    Closed path (.returned id call success :: trail id turn) ↔
      ∃ closed, call = .closeView closed ∧ closed.components = path.components := by
  rw [← List.singleton_append, closed_append, or_iff_left not_closed_trail]
  constructor
  · rintro ⟨other, closed, result, member, same⟩
    cases List.mem_singleton.mp member
    exact ⟨closed, rfl, same⟩
  · rintro ⟨closed, rfl, same⟩
    exact ⟨id, closed, success, List.mem_singleton_self _, same⟩

/-- The indexed paths of a run are those of which a view has been closed. -/
theorem mem_indexed_iff (configuration : Configuration) (actions : List Action) :
    path.components ∈ (after configuration actions).workspace.indexed ↔
      Closed path (after configuration actions).record := by
  refine after_induction (motive := fun run => path.components ∈ run.workspace.indexed ↔ Closed path run.record)
    ?_ ?_ actions
  · simp [empty, Workspace.empty, Closed]
  · intro run action next known advances
    cases advances with
    | begin fresh =>
      rw [follow, Demand.start_indexed, closed_append, or_iff_left not_closed_begun]
      exact known
    | reply waits calls fits =>
      rw [follow, Request.resume_indexed calls fits, Request.mem_learned_iff calls, closed_append,
        closed_returned_iff, known]
    | drop waits =>
      rw [abandon, Request.cancel_indexed, closed_append, or_iff_left (by simp [Closed])]
      exact known

end Run
end TypedJson
