import Docstore.Proofs.Distance
import Docstore.Proofs.Predicate.Grammar
import Docstore.Proofs.Update.Reading
import Docstore.Statement.Compile

/-!
# How requests are refused

Every reader that takes part in compiling a request fails with a word about the
request: a field is missing, or a criterion, an operator, a pipeline, an update or a
distance is wrong.  None fails for a reason outside the request.  There is one lemma
for each reader, built from those of its parts, and `failsOnly_compile` puts them
together.
-/

namespace Docstore

namespace Failure

def IsRefusal (f : Failure) : Prop := f.isValidation = true

theorem BlamesPredicate.isRefusal {f : Failure} (h : f.BlamesPredicate) : f.IsRefusal := by
  rcases h with ⟨reason, rfl⟩ | ⟨operator, reason, rfl⟩ <;> rfl

theorem BlamesUpdate.isRefusal {f : Failure} (h : f.BlamesUpdate) : f.IsRefusal := by
  obtain ⟨reason, rfl⟩ := h
  rfl

theorem BlamesDistance.isRefusal {f : Failure} (h : f.BlamesDistance) : f.IsRefusal := by
  obtain ⟨reason, rfl⟩ := h
  rfl

end Failure

open Failure (IsRefusal BlamesUpdate)

theorem Predicate.failsOnly_isRefusal (v : Json) : FailsOnly IsRefusal (ofJson v) :=
  (failsOnly_ofJson v).mono fun _ h => h.isRefusal

/-! ### Criteria -/

namespace Criteria

theorem failsOnly_readFilter (o : Option Json) : FailsOnly IsRefusal (readFilter o) := by
  cases o with
  | none => exact .ok _
  | some v => exact Predicate.failsOnly_isRefusal v

theorem failsOnly_readSelect (o : Option Json) : FailsOnly IsRefusal (readSelect o) := by
  have hitem : ∀ v, FailsOnly IsRefusal (readSelected v) := by
    intro v
    rw [readSelected.eq_def]
    split
    · exact .ok _
    · exact .error rfl
  rw [readSelect.eq_def]
  split
  · exact .ok _
  · exact .mapM fun v _ => hitem v
  · exact .error rfl

theorem failsOnly_readSortKeys (members : Dictionary Json) :
    FailsOnly IsRefusal (readSortKeys members) := by
  refine FailsOnly.mapM fun m _ => ?_
  rw [readSortKey]
  split
  · exact .ok _
  · exact .error rfl

theorem failsOnly_readSort (o : Option Json) : FailsOnly IsRefusal (readSort o) := by
  have hitem : ∀ v, FailsOnly IsRefusal (readSortItem v) := by
    intro v
    rw [readSortItem.eq_def]
    split
    · exact failsOnly_readSortKeys _
    · exact .error rfl
  rw [readSort.eq_def]
  split
  · exact .ok _
  · exact failsOnly_readSortKeys _
  · exact FailsOnly.map (.mapM fun v _ => hitem v) _
  · exact .error rfl

theorem failsOnly_readCount (key : String) (o : Option Json) :
    FailsOnly IsRefusal (readCount key o) := by
  cases o with
  | none => exact .ok _
  | some v =>
    rw [readCount]
    split
    · exact .ok _
    · exact .error rfl

theorem failsOnly_ofMembers (members : Dictionary Json) :
    FailsOnly IsRefusal (ofMembers members) :=
  (failsOnly_readFilter _).bind fun _ => (failsOnly_readSelect _).bind fun _ =>
    (failsOnly_readSort _).bind fun _ => (failsOnly_readCount _ _).bind fun _ =>
      (failsOnly_readCount _ _).bind fun _ => .ok _

theorem failsOnly_ofJson (v : Json) : FailsOnly IsRefusal (ofJson v) := by
  rw [ofJson.eq_def]
  split
  · exact .ok _
  · exact .ok _
  · split
    · exact failsOnly_ofMembers _
    · exact .error rfl
  · exact .error rfl

end Criteria

/-! ### Edges -/

theorem EdgeList.failsOnly_ofJson (v : Json) : FailsOnly IsRefusal (ofJson v) := by
  have hname : ∀ w, FailsOnly IsRefusal (readName w) := by
    intro w
    rw [readName.eq_def]
    split
    · exact .ok _
    · exact .error rfl
  have hnames : FailsOnly IsRefusal (readNames v) := by
    rw [readNames.eq_def]
    split
    · exact .ok _
    · exact .mapM fun w _ => hname w
    · exact .error rfl
  refine FailsOnly.bind hnames fun names => ?_
  rw [ofNames]
  split
  · exact .error rfl
  · exact .ok _

/-! ### Pipelines -/

namespace Pipeline

theorem failsOnly_stageMembers (stage : String) (v : Json) :
    FailsOnly IsRefusal (stageMembers stage v) := by
  rw [stageMembers.eq_def]
  split
  · exact .ok _
  · exact .error rfl

theorem failsOnly_readAlias (stage name : String) :
    FailsOnly IsRefusal (readAlias stage name) := by
  rw [readAlias]
  split
  · exact .ok _
  · exact .error rfl

theorem failsOnly_readFilter (o : Option Json) : FailsOnly IsRefusal (readFilter o) := by
  cases o with
  | none => exact .ok _
  | some v =>
    exact (failsOnly_stageMembers _ v).bind fun _ =>
      (Predicate.failsOnly_isRefusal v).bind fun _ => .ok _

theorem failsOnly_stage {α : Type} (stage : String) {read : String × Json → Except Failure α}
    (hread : ∀ m, FailsOnly IsRefusal (read m)) (v : Json) :
    FailsOnly IsRefusal (do let members ← stageMembers stage v; members.mapM read) :=
  (failsOnly_stageMembers stage v).bind fun _ => .mapM fun m _ => hread m

theorem failsOnly_readGrouping (m : String × Json) : FailsOnly IsRefusal (readGrouping m) := by
  rw [readGrouping]
  split
  · split
    · split
      · exact .ok _
      · exact .error rfl
    · exact (failsOnly_readAlias _ _).map _
  · exact .error rfl

theorem failsOnly_readAggregate (m : String × Json) : FailsOnly IsRefusal (readAggregate m) := by
  rw [readAggregate]
  split
  · split
    · exact .error rfl
    split
    · exact (failsOnly_readAlias _ _).map _
    · exact .error rfl
  · exact .error rfl
  · exact .error rfl

theorem failsOnly_readSortKey (m : String × Json) : FailsOnly IsRefusal (readSortKey m) := by
  rw [readSortKey]
  split
  · exact .ok _
  split
  · exact .ok _
  · exact .error rfl

theorem failsOnly_readCollect (o : Option Json) : FailsOnly IsRefusal (readCollect o) := by
  cases o with
  | none => exact .ok _
  | some v => exact failsOnly_stage _ failsOnly_readGrouping v

theorem failsOnly_readAggregates (o : Option Json) : FailsOnly IsRefusal (readAggregates o) := by
  cases o with
  | none => exact .ok _
  | some v => exact failsOnly_stage _ failsOnly_readAggregate v

theorem failsOnly_readSort (o : Option Json) : FailsOnly IsRefusal (readSort o) := by
  cases o with
  | none => exact .ok _
  | some v => exact failsOnly_stage _ failsOnly_readSortKey v

theorem failsOnly_readShape (o : Option Json) : FailsOnly IsRefusal (readShape o) := by
  cases o with
  | none => exact .ok _
  | some v => exact (failsOnly_stageMembers _ v).bind fun _ => .ok _

theorem failsOnly_ofJson (v : Json) : FailsOnly IsRefusal (ofJson v) := by
  rw [ofJson.eq_def]
  split
  · exact (failsOnly_readFilter _).bind fun _ => (failsOnly_readCollect _).bind fun _ =>
      (failsOnly_readAggregates _).bind fun _ => (failsOnly_readSort _).bind fun _ =>
        (failsOnly_readShape _).bind fun _ => .ok _
  · exact .error rfl

end Pipeline

/-! ### Requests -/

namespace Request

theorem failsOnly_need {α : Type} (name : String) (o : Option α) :
    FailsOnly IsRefusal (need name o) := by
  cases o with
  | none => exact .error rfl
  | some a => exact .ok a

theorem failsOnly_readOptional {α : Type} {read : Json → Except Failure α}
    (hread : ∀ v, FailsOnly IsRefusal (read v)) (o : Option Json) :
    FailsOnly IsRefusal (readOptional read o) := by
  cases o with
  | none => exact .ok _
  | some v => exact (hread v).map _

theorem failsOnly_traversalFilter (primaryKey loopVar : String) (o : Option Json) :
    FailsOnly IsRefusal (traversalFilter primaryKey loopVar o) := by
  rw [traversalFilter.eq_def]
  split
  · exact .ok _
  · exact .ok _
  · exact (Predicate.failsOnly_isRefusal _).map _

theorem failsOnly_checkDocuments (method : Method) (values : Json) :
    FailsOnly IsRefusal (checkDocuments method values) := by
  rw [checkDocuments.eq_def]
  split
  · split
    · exact .ok _
    · exact .error rfl
  · exact .error rfl
  · exact .ok _
  · exact .error rfl

theorem failsOnly_checkNeeds (r : Request) (method : Method) (edges : Option String)
    (distance : Option Distance) : FailsOnly IsRefusal (checkNeeds r method edges distance) := by
  rw [checkNeeds]
  split
  · exact .error rfl
  split
  · exact .error rfl
  split
  · exact .error rfl
  · exact .ok _

theorem failsOnly_compilePayload (now : String) (r : Request) (method : Method)
    (filter : Predicate) : FailsOnly IsRefusal (compilePayload now r method filter) := by
  rw [compilePayload]
  split
  · exact (failsOnly_need _ _).bind fun values =>
      ((failsOnly_fieldMutations values).mono fun _ h => h.isRefusal).bind fun _ => .ok _
  split
  · exact (failsOnly_need _ _).bind fun values =>
      (failsOnly_checkDocuments method values).bind fun _ => .ok _
  · exact .ok _

theorem failsOnly_compileStatement (now : String) (r : Request) (model : String) (method : Method)
    (primaryKey : String) :
    FailsOnly IsRefusal (compileStatement now r model method primaryKey) :=
  (Criteria.failsOnly_ofJson _).bind fun _ => (failsOnly_traversalFilter _ _ _).bind fun _ =>
    (failsOnly_traversalFilter _ _ _).bind fun _ =>
      (failsOnly_readOptional EdgeList.failsOnly_ofJson _).bind fun _ =>
        (failsOnly_readOptional
          (fun v => (Distance.failsOnly_ofJson v).mono fun _ h => h.isRefusal) _).bind fun _ =>
            (failsOnly_checkNeeds _ _ _ _).bind fun _ =>
              (failsOnly_compilePayload _ _ _ _).bind fun _ => .ok _

/-- **Whatever request is refused, it is refused for its shape.** -/
theorem failsOnly_compile (now : String) (r : Request) : FailsOnly IsRefusal (r.compile now) := by
  refine (failsOnly_need _ _).bind fun model => (failsOnly_need _ _).bind fun method =>
    (failsOnly_need _ _).bind fun key => ?_
  split
  · exact (failsOnly_need _ _).bind fun v =>
      ((Pipeline.failsOnly_ofJson v).map _).bind fun _ => .ok _
  · exact (failsOnly_compileStatement _ _ _ _ _).bind fun _ => .ok _

end Request

end Docstore
