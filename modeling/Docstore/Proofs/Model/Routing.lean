import Docstore.Model.Registry
import Mathlib.Data.List.Induction

/-!
# Which model a table leads to

A registry is what a history of registrations leaves.  `latest?` looks into the
history itself: for the last registration of an identity, or the last one into a
table.  Models and owners are two dictionaries that a registration changes
together; `get?_ofHistory` and `owner?_ofHistory_eq_some_iff` say what each holds
after every history, and the routing follows from the two.

* A table never leads to a model that was replaced or is stored elsewhere, and
  a registration touches two tables at most (`routing_ofHistory`).
* A table leads to the model that was registered into it last of all, unless
  that model was registered anew since (`byTable?_ofHistory`).

In the second case the table leads nowhere: it is not handed back to a model
that has been stored in it all the time (`byTable?_forgotten`).
-/

namespace Docstore

def latest? (p : Model → Prop) [DecidablePred p] (history : List Model) : Option Model :=
  (history.filter fun m => p m).getLast?

section

variable {p : Model → Prop} [DecidablePred p]

theorem latest?_concat (history : List Model) (m : Model) :
    latest? p (history ++ [m]) = if p m then some m else latest? p history := by
  rw [latest?, List.filter_append]
  by_cases h : p m
  · rw [if_pos h, List.filter_cons_of_pos (by simpa using h), List.filter_nil,
      List.getLast?_concat]
  · rw [if_neg h, List.filter_cons_of_neg (by simpa using h), List.filter_nil, List.append_nil,
      latest?]

theorem of_latest?_eq_some {history : List Model} {m : Model} (h : latest? p history = some m) :
    p m := by
  have hmem : m ∈ history.filter fun m => p m := List.mem_of_getLast? h
  simpa using (List.mem_filter.mp hmem).2

end

namespace Registry

def ofHistory (history : List Model) : Registry := history.foldl register {}

theorem ofHistory_concat (history : List Model) (m : Model) :
    ofHistory (history ++ [m]) = (ofHistory history).register m := by
  rw [ofHistory, List.foldl_append]
  rfl

def owner? (r : Registry) (table : String) : Option String := Dictionary.get? table r.owners

/-! ### One registration -/

theorem get?_register (r : Registry) (m : Model) (identity : String) :
    (r.register m).get? identity = if m.identity = identity then some m else r.get? identity :=
  Dictionary.get?_put r.models m.identity identity m

theorem get?_released_eq_some_iff (owners : Dictionary String) (m : Model)
    (table identity : String) :
    Dictionary.get? table (released owners m) = some identity ↔
      Dictionary.get? table owners = some identity ∧
        ¬(m.table = table ∧ m.identity = identity) := by
  rw [released]
  by_cases howner : Dictionary.get? m.table owners = some m.identity
  · rw [if_pos howner, Dictionary.get?_erase]
    by_cases htable : m.table = table
    · subst htable
      simp [howner]
    · simp [htable]
  · -- the table of the model has another owner, or none: nothing is given up
    rw [if_neg howner]
    refine (and_iff_left_of_imp fun h => ?_).symm
    rintro ⟨rfl, rfl⟩
    exact howner h

theorem owner?_register_self (r : Registry) (m : Model) :
    (r.register m).owner? m.table = some m.identity :=
  Dictionary.get?_put_self _ m.table m.identity

theorem owner?_register_of_ne {r : Registry} {m : Model} {table : String}
    (hne : m.table ≠ table) (identity : String) :
    (r.register m).owner? table = some identity ↔
      r.owner? table = some identity ∧
        ¬∃ previous, r.get? m.identity = some previous ∧ previous.table = table ∧
          previous.identity = identity := by
  have hput : ∀ owners, Dictionary.get? table (Dictionary.put m.table m.identity owners) =
      Dictionary.get? table owners := fun owners => Dictionary.get?_put_of_ne owners m.identity hne
  cases hprevious : r.get? m.identity with
  | none => simp [owner?, register, replace, hprevious, hput]
  | some previous => simp [owner?, register, replace, hprevious, hput, get?_released_eq_some_iff]

/-! ### A history of registrations -/

theorem get?_ofHistory (history : List Model) (identity : String) :
    (ofHistory history).get? identity = latest? (fun m => m.identity = identity) history := by
  induction history using List.reverseRecOn with
  | nil => rfl
  | append_singleton history m ih => rw [ofHistory_concat, get?_register, latest?_concat, ih]

theorem identity_of_get?_ofHistory {history : List Model} {identity : String} {m : Model}
    (h : (ofHistory history).get? identity = some m) : m.identity = identity := by
  rw [get?_ofHistory] at h
  exact of_latest?_eq_some h

/-- **Owners and models agree.**  A table is owned by the identity that was
registered into it last of all, as long as that registration is the last one of
the identity too. -/
theorem owner?_ofHistory_eq_some_iff (history : List Model) (table identity : String) :
    (ofHistory history).owner? table = some identity ↔
      ∃ m, latest? (fun m => m.table = table) history = some m ∧ m.identity = identity ∧
        (ofHistory history).get? identity = some m := by
  induction history using List.reverseRecOn with
  | nil => simp [ofHistory, owner?, latest?, Dictionary.get?]
  | append_singleton history new ih =>
    rw [ofHistory_concat, latest?_concat, get?_register]
    by_cases htable : new.table = table
    · -- the new model takes the table, whoever owned it
      subst htable
      rw [owner?_register_self]
      constructor
      · intro h
        obtain rfl := Option.some.inj h
        exact ⟨new, if_pos rfl, rfl, if_pos rfl⟩
      · rintro ⟨m, hm, hidentity, -⟩
        rw [if_pos rfl] at hm
        obtain rfl := Option.some.inj hm
        rw [hidentity]
    · rw [owner?_register_of_ne htable, if_neg htable, ih]
      by_cases hidentity : new.identity = identity
      · -- the owner itself was registered anew, so its claim on the table is released
        rw [if_pos hidentity]
        constructor
        · rintro ⟨⟨m, hlatest, hm, hget⟩, hkept⟩
          refine absurd ⟨m, ?_, ?_, hm⟩ hkept
          · rw [hidentity]
            exact hget
          · exact of_latest?_eq_some hlatest
        · rintro ⟨m, hlatest, -, hnew⟩
          obtain rfl := Option.some.inj hnew
          exact absurd (of_latest?_eq_some hlatest) htable
      · rw [if_neg hidentity]
        refine and_iff_left ?_
        rintro ⟨previous, hget, -, hprevious⟩
        exact hidentity ((identity_of_get?_ofHistory hget).symm.trans hprevious)

theorem byTable?_eq_some_iff {r : Registry} {table : String} {m : Model} :
    r.byTable? table = some m ↔
      ∃ identity, r.owner? table = some identity ∧ r.get? identity = some m := by
  rw [byTable?, Option.bind_eq_some_iff]
  rfl

/-- What a table leads to, said of the models alone. -/
theorem byTable?_ofHistory_eq_some_iff (history : List Model) (table : String) (m : Model) :
    (ofHistory history).byTable? table = some m ↔
      latest? (fun m => m.table = table) history = some m ∧
        (ofHistory history).get? m.identity = some m := by
  rw [byTable?_eq_some_iff]
  constructor
  · rintro ⟨identity, howner, hget⟩
    obtain ⟨last, hlatest, hidentity, hlast⟩ :=
      (owner?_ofHistory_eq_some_iff history table identity).mp howner
    obtain rfl := Option.some.inj (hlast.symm.trans hget)
    rw [hidentity]
    exact ⟨hlatest, hget⟩
  · rintro ⟨hlatest, hget⟩
    exact ⟨m.identity,
      (owner?_ofHistory_eq_some_iff history table m.identity).mpr ⟨m, hlatest, rfl, hget⟩, hget⟩

/-- **A table leads to the model registered into it last of all**, for events as
for the table itself, as long as no later registration has replaced that model;
otherwise it leads nowhere. -/
theorem byTable?_ofHistory (history : List Model) (table : String) :
    (∀ m, (ofHistory history).byTable? table = some m ↔
      latest? (fun m => m.table = table) history = some m ∧
        latest? (fun other => other.identity = m.identity) history = some m) ∧
    ∀ e : ChangeEvent, e.collection = table →
      (ofHistory history).ofEvent? e = (ofHistory history).byTable? table := by
  refine ⟨fun m => ?_, fun e he => ?_⟩
  · rw [byTable?_ofHistory_eq_some_iff, get?_ofHistory]
  · rw [ofEvent?, he]

/-- Of two models in one table the one that owns it moves away: the other is
still registered there, and the table leads nowhere. -/
theorem byTable?_forgotten :
    let user : Model := { identity := "user", table := "users", primaryKey := "id" }
    let member : Model := { identity := "member", table := "users", primaryKey := "id" }
    let r := ofHistory [user, member, { member with table := "members" }]
    r.get? "user" = some user ∧ user.table = "users" ∧ r.byTable? "users" = none := by
  decide

/-- **A registry leads to current models only.**  After every history an identity
leads to the model registered last under it, which is also what the next
registration of that identity returns; a table leads to a model that is stored
in it and that its identity leads to.  Right after a registration its table leads
to the new model, and of the other tables only the one where the replaced model
was stored may change. -/
theorem routing_ofHistory (history : List Model) :
    let r := ofHistory history
    (∀ identity, r.get? identity = latest? (fun m => m.identity = identity) history) ∧
      (∀ m, r.replace m = (r.register m, r.get? m.identity)) ∧
      (∀ table m, r.byTable? table = some m → m.table = table ∧ r.get? m.identity = some m) ∧
      (∀ m, (r.register m).byTable? m.table = some m) ∧
      ∀ m table, table ≠ m.table →
        (∀ previous, r.get? m.identity = some previous → table ≠ previous.table) →
        (r.register m).byTable? table = r.byTable? table := by
  intro r
  refine ⟨get?_ofHistory history, fun m => rfl, fun table m h => ?_, fun m => ?_,
    fun m table hnew hold => ?_⟩
  · obtain ⟨hlatest, hget⟩ := (byTable?_ofHistory_eq_some_iff history table m).mp h
    exact ⟨of_latest?_eq_some hlatest, hget⟩
  · rw [byTable?_eq_some_iff]
    exact ⟨m.identity, owner?_register_self r m, by rw [get?_register, if_pos rfl]⟩
  · refine Option.ext fun found => ?_
    show (r.register m).byTable? table = some found ↔ r.byTable? table = some found
    rw [← ofHistory_concat, byTable?_ofHistory_eq_some_iff, byTable?_ofHistory_eq_some_iff,
      ofHistory_concat, latest?_concat, if_neg (Ne.symm hnew), get?_register]
    refine and_congr_right fun hlatest => ?_
    have htable : found.table = table := of_latest?_eq_some hlatest
    by_cases hidentity : m.identity = found.identity
    · -- both sides fail: a model of this identity is stored in neither of the two tables
      rw [if_pos hidentity]
      constructor
      · intro h
        obtain rfl := Option.some.inj h
        exact absurd htable.symm hnew
      · intro h
        rw [← hidentity] at h
        exact absurd htable.symm (hold found h)
    · rw [if_neg hidentity]

end Registry

end Docstore
