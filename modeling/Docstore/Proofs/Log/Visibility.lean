import Docstore.Proofs.Log.Batches

/-!
# Which entries become visible, and when

An entry of a document that belongs to a transaction waits until the next
control entry of that transaction.  If this is a commit, the entry comes out
there; if it is a start or an abort, the entry never comes out.  An entry
outside any transaction comes out at once.

`ComesOut log j i` says in these words, on the positions of a log alone, that
the entry at `j` comes out while the entry at `i` is processed.  It knows
nothing of buffers.  `Cursor.emissions_applyAll` says that a cursor without open
transactions does exactly this, however the log is cut into batches.

The invariant behind it is `heldOf_run_take`: after `n` entries the store holds,
for each transaction, the entries that wait at `n` (`Waits`), in order.
-/

namespace Docstore

namespace LogEntry

def HasUsableId (e : LogEntry) : Prop :=
  (((e.data.member? "_id").bind Json.string?).bind splitDocumentId?).isSome = true

instance (e : LogEntry) : Decidable e.HasUsableId := inferInstanceAs (Decidable (_ = true))

theorem toEvent?_isSome_iff (e : LogEntry) :
    e.toEvent?.isSome = true ↔ e.IsDocument ∧ e.HasUsableId := by
  have hsome : e.toEvent?.isSome = true ↔ e.change?.isSome = true ∧ e.HasUsableId := by
    rw [toEvent?, HasUsableId]
    cases e.change? with
    | none => simp
    | some kind =>
      cases (e.data.member? "_id").bind Json.string? with
      | none => simp
      | some id =>
        show ((splitDocumentId? id).bind _).isSome = true ↔ _
        cases hid : splitDocumentId? id with
        | none => simp [hid]
        | some halves => simp [hid]
  rw [hsome, change?_isSome_iff]

end LogEntry

/-! ### The fate of an entry -/

/-- The first control entry after position `j` that names the transaction of the
entry at `j` stands at position `i`. -/
def Decides (log : List LogEntry) (j i : Nat) : Prop :=
  ∃ e ∈ log[j]?, ∃ d ∈ log[i]?, j < i ∧ d.IsControl ∧ d.transaction = e.transaction ∧
    ∀ k < i, j < k → ∀ x ∈ log[k]?, x.IsControl → x.transaction ≠ e.transaction

/-- The entry at `j` comes out while the entry at `i` is processed: it is a
document with a usable id, and either stands outside any transaction and `i` is
its own position, or `i` decides its transaction and is a commit. -/
def ComesOut (log : List LogEntry) (j i : Nat) : Prop :=
  ∃ e ∈ log[j]?, e.IsDocument ∧ e.HasUsableId ∧
    ((e.transaction = standaloneId ∧ i = j) ∨
      (e.transaction ≠ standaloneId ∧ Decides log j i ∧ ∃ d ∈ log[i]?, d.code = 2201))

instance (log : List LogEntry) (j i : Nat) : Decidable (Decides log j i) :=
  inferInstanceAs (Decidable (∃ e ∈ log[j]?, ∃ d ∈ log[i]?, _))

instance (log : List LogEntry) (j i : Nat) : Decidable (ComesOut log j i) :=
  inferInstanceAs (Decidable (∃ e ∈ log[j]?, _))

/-- The positions of the entries that come out at `i`, in order of arrival. -/
def released (log : List LogEntry) (i : Nat) : List Nat :=
  (List.range (i + 1)).filter fun j => ComesOut log j i

/-- The positions of the entries that come out, in the order in which they do. -/
def releaseOrder (log : List LogEntry) : List Nat :=
  (List.range log.length).flatMap (released log)

def eventAt? (log : List LogEntry) (j : Nat) : Option ChangeEvent := log[j]?.bind LogEntry.toEvent?

theorem Decides.unique {log : List LogEntry} {j i i' : Nat} (h : Decides log j i)
    (h' : Decides log j i') : i = i' := by
  obtain ⟨e, he, d, hd, hji, hc, ht, hfirst⟩ := h
  obtain ⟨e', he', d', hd', hji', hc', ht', hfirst'⟩ := h'
  obtain rfl : e = e' := Option.mem_unique he he'
  rcases Nat.lt_trichotomy i i' with hlt | heq | hgt
  · exact absurd ht (hfirst' i hlt hji d hd hc)
  · exact heq
  · exact absurd ht' (hfirst i' hgt hji' d' hd' hc')

/-- **An entry comes out at one position at most.** -/
theorem ComesOut.unique {log : List LogEntry} {j i i' : Nat} (h : ComesOut log j i)
    (h' : ComesOut log j i') : i = i' := by
  obtain ⟨e, he, -, -, h⟩ := h
  obtain ⟨e', he', -, -, h'⟩ := h'
  obtain rfl : e = e' := Option.mem_unique he he'
  rcases h with ⟨hs, hi⟩ | ⟨hs, hd, -⟩
  · rcases h' with ⟨-, hi'⟩ | ⟨hs', -, -⟩
    · rw [hi, hi']
    · exact absurd hs hs'
  · rcases h' with ⟨hs', -⟩ | ⟨-, hd', -⟩
    · exact absurd hs' hs
    · exact hd.unique hd'

theorem ComesOut.le {log : List LogEntry} {j i : Nat} (h : ComesOut log j i) : j ≤ i := by
  obtain ⟨e, -, -, -, ⟨-, hi⟩ | ⟨-, ⟨-, -, -, -, hji, -⟩, -⟩⟩ := h
  · exact Nat.le_of_eq hi.symm
  · exact Nat.le_of_lt hji

theorem ComesOut.lt_length {log : List LogEntry} {j i : Nat} (h : ComesOut log j i) :
    i < log.length := by
  obtain ⟨e, he, -, -, ⟨-, rfl⟩ | ⟨-, -, d, hd, -⟩⟩ := h
  · exact (List.getElem?_eq_some_iff.mp he).1
  · exact (List.getElem?_eq_some_iff.mp hd).1

theorem mem_released {log : List LogEntry} {i j : Nat} : j ∈ released log i ↔ ComesOut log j i := by
  rw [released, List.mem_filter, List.mem_range, decide_eq_true_iff]
  exact ⟨fun h => h.2, fun h => ⟨Nat.lt_succ_of_le h.le, h⟩⟩

theorem mem_releaseOrder {log : List LogEntry} {j : Nat} :
    j ∈ releaseOrder log ↔ ∃ i, ComesOut log j i := by
  rw [releaseOrder, List.mem_flatMap]
  constructor
  · rintro ⟨i, -, hj⟩
    exact ⟨i, mem_released.mp hj⟩
  · rintro ⟨i, h⟩
    exact ⟨i, List.mem_range.mpr h.lt_length, mem_released.mpr h⟩

theorem nodup_releaseOrder (log : List LogEntry) : (releaseOrder log).Nodup := by
  refine List.pairwise_flatMap.mpr ⟨fun i _ => ?_, ?_⟩
  · exact List.Pairwise.filter _ List.nodup_range
  · refine List.nodup_range.imp ?_
    intro i i' hne j hj j' hj' hjj'
    subst hjj'
    exact hne ((mem_released.mp hj).unique (mem_released.mp hj'))

/-! ### What is held back -/

/-- The entry at `j` waits, when `n` entries have been processed, for the fate of
the transaction `tid`. -/
def Waits (log : List LogEntry) (n : Nat) (tid : String) (j : Nat) : Prop :=
  ∃ e ∈ log[j]?, e.IsHeld ∧ e.transaction = tid ∧
    ∀ k < n, j < k → ∀ x ∈ log[k]?, x.IsControl → x.transaction ≠ tid

instance (log : List LogEntry) (n : Nat) (tid : String) (j : Nat) :
    Decidable (Waits log n tid j) := inferInstanceAs (Decidable (∃ e ∈ log[j]?, _))

def waiting (log : List LogEntry) (n : Nat) (tid : String) : List Nat :=
  (List.range n).filter fun j => Waits log n tid j

theorem waits_succ {log : List LogEntry} {n : Nat} {e : LogEntry} (h : log[n]? = some e)
    (tid : String) {j : Nat} (hj : j < n) :
    Waits log (n + 1) tid j ↔ Waits log n tid j ∧ ¬(e.IsControl ∧ e.transaction = tid) := by
  constructor
  · rintro ⟨x, hx, hh, ht, hfree⟩
    refine ⟨⟨x, hx, hh, ht, fun k hk => hfree k (by omega)⟩, ?_⟩
    rintro ⟨hc, hte⟩
    exact hfree n (by omega) hj e h hc hte
  · rintro ⟨⟨x, hx, hh, ht, hfree⟩, hn⟩
    refine ⟨x, hx, hh, ht, fun k hk hjk y hy hc => ?_⟩
    rcases Nat.lt_succ_iff_lt_or_eq.mp hk with hlt | rfl
    · exact hfree k hlt hjk y hy hc
    · obtain rfl : e = y := Option.mem_unique h hy
      exact fun hte => hn ⟨hc, hte⟩

/-- The new entry itself waits when it is held back: nothing stands after it yet. -/
theorem waits_self {log : List LogEntry} {n : Nat} {e : LogEntry} (h : log[n]? = some e)
    (tid : String) : Waits log (n + 1) tid n ↔ e.IsHeld ∧ e.transaction = tid := by
  constructor
  · rintro ⟨x, hx, hh, ht, -⟩
    obtain rfl : e = x := Option.mem_unique h hx
    exact ⟨hh, ht⟩
  · rintro ⟨hh, ht⟩
    exact ⟨e, h, hh, ht, fun k hk hnk => absurd hk (by omega)⟩

/-- The positions that wait change with an entry as the store does (`heldOf_step`). -/
theorem waiting_succ {log : List LogEntry} {n : Nat} {e : LogEntry} (h : log[n]? = some e)
    (tid : String) :
    waiting log (n + 1) tid =
      if e.IsControl ∧ e.transaction = tid then []
      else waiting log n tid ++ if e.IsHeld ∧ e.transaction = tid then [n] else [] := by
  have hlast : [n].filter (fun j => Waits log (n + 1) tid j) =
      if e.IsHeld ∧ e.transaction = tid then [n] else [] := by
    simp only [List.filter_cons, List.filter_nil, waits_self h, decide_eq_true_eq]
  have hfirst : (List.range n).filter (fun j => Waits log (n + 1) tid j) =
      if e.IsControl ∧ e.transaction = tid then [] else waiting log n tid := by
    split
    · next hc =>
      refine List.filter_eq_nil_iff.mpr fun j hj => ?_
      rw [decide_eq_true_iff, waits_succ h tid (List.mem_range.mp hj)]
      exact fun hw => hw.2 hc
    · next hc =>
      refine List.filter_congr fun j hj => ?_
      rw [decide_eq_decide, waits_succ h tid (List.mem_range.mp hj)]
      exact and_iff_left hc
  rw [waiting, List.range_succ, List.filter_append, hfirst, hlast]
  split
  · next hc => rw [if_neg (fun hh => hc.1.not_isDocument hh.1.1), List.append_nil]
  · rfl

/-- **The invariant**: the store holds, for each transaction, the entries that
wait for it, in order. -/
theorem heldOf_run_take (log : List LogEntry) (n : Nat) (hn : n ≤ log.length) (tid : String) :
    Transactions.heldOf tid (Transactions.run [] (log.take n)).1 =
      (waiting log n tid).filterMap fun j => log[j]? := by
  induction n with
  | zero => rfl
  | succ n ih =>
    have hlt : n < log.length := hn
    have he : log[n]? = some log[n] := List.getElem?_eq_getElem hlt
    have hstep : (Transactions.run [] (log.take (n + 1))).1 =
        ((Transactions.run [] (log.take n)).1.step log[n]).1 := by
      rw [← List.take_append_getElem hlt, Transactions.transactions_run_append]
      rfl
    rw [hstep, Transactions.heldOf_step, waiting_succ he, ih (Nat.le_of_lt hlt)]
    split
    · rfl
    · rw [List.filterMap_append]
      split
      · rw [List.filterMap_cons, he]; rfl
      · rfl

/-! ### What comes out -/

theorem comesOut_commit {log : List LogEntry} {n : Nat} {e : LogEntry} (h : log[n]? = some e)
    (hc : e.code = 2201) {j : Nat} (hj : j < n) :
    ComesOut log j n ↔
      Waits log n e.transaction j ∧ ∃ x ∈ log[j]?, x.HasUsableId := by
  constructor
  · rintro ⟨x, hx, hdoc, hid, ⟨-, hn⟩ | ⟨hs, ⟨x', hx', d, hd, -, -, ht, hfirst⟩, -⟩⟩
    · omega
    · obtain rfl : x = x' := Option.mem_unique hx hx'
      obtain rfl : e = d := Option.mem_unique h hd
      refine ⟨⟨x, hx, ⟨hdoc, hs⟩, ht.symm, fun k hk hjk y hy hyc => ?_⟩, x, hx, hid⟩
      rw [ht]
      exact hfirst k hk hjk y hy hyc
  · rintro ⟨⟨x, hx, hh, ht, hfree⟩, x', hx', hid⟩
    obtain rfl : x = x' := Option.mem_unique hx hx'
    refine ⟨x, hx, hh.1, hid, Or.inr ⟨hh.2, ⟨x, hx, e, h, hj, Or.inr (Or.inl hc), ht.symm, ?_⟩,
      e, h, hc⟩⟩
    intro k hk hjk y hy hyc
    rw [ht]
    exact hfree k hk hjk y hy hyc

theorem comesOut_of_ne_commit {log : List LogEntry} {n : Nat} {e : LogEntry}
    (h : log[n]? = some e) (hc : e.code ≠ 2201) {j : Nat} :
    ComesOut log j n ↔
      j = n ∧ e.IsDocument ∧ e.transaction = standaloneId ∧ e.HasUsableId := by
  constructor
  · rintro ⟨x, hx, hdoc, hid, ⟨hs, rfl⟩ | ⟨-, -, d, hd, hcode⟩⟩
    · obtain rfl : e = x := Option.mem_unique h hx
      exact ⟨rfl, hdoc, hs, hid⟩
    · obtain rfl : e = d := Option.mem_unique h hd
      exact absurd hcode hc
  · rintro ⟨rfl, hdoc, hs, hid⟩
    exact ⟨e, h, hdoc, hid, Or.inl ⟨hs, rfl⟩⟩

theorem map_eventAt?_filter (log : List LogEntry) (js : List Nat)
    (hjs : ∀ j ∈ js, ∃ x ∈ log[j]?, x.IsDocument) :
    (js.filter fun j => decide (∃ x ∈ log[j]?, x.HasUsableId)).map (eventAt? log) =
      ((js.filterMap fun j => log[j]?).filterMap LogEntry.toEvent?).map some := by
  induction js with
  | nil => rfl
  | cons j js ih =>
    obtain ⟨x, hx, hdoc⟩ := hjs j List.mem_cons_self
    have hrest := ih fun k hk => hjs k (List.mem_cons_of_mem j hk)
    have hjx : log[j]? = some x := hx
    have hexists : (∃ y ∈ log[j]?, y.HasUsableId) ↔ x.HasUsableId := by
      rw [hjx]
      exact ⟨fun ⟨y, hy, hid⟩ => Option.mem_some.mp hy ▸ hid, fun hid => ⟨x, rfl, hid⟩⟩
    rw [List.filterMap_cons, hjx, List.filterMap_cons]
    by_cases hid : x.HasUsableId
    · obtain ⟨ev, hev⟩ := Option.isSome_iff_exists.mp (x.toEvent?_isSome_iff.mpr ⟨hdoc, hid⟩)
      rw [List.filter_cons_of_pos (by rw [decide_eq_true_iff]; exact hexists.mpr hid),
        List.map_cons, hrest, eventAt?, hjx, hev]
      simp only [Option.bind_some, hev, List.map_cons]
    · have hnone : x.toEvent? = none := by
        refine Option.not_isSome_iff_eq_none.mp fun hsome => ?_
        exact hid (x.toEvent?_isSome_iff.mp hsome).2
      rw [List.filter_cons_of_neg (by rw [decide_eq_true_iff]; exact fun h => hid (hexists.mp h)),
        hrest, hnone]

/-- **One entry**: what comes out while the entry at `n` is processed, in the
state that the entries before it left, are the events of the positions released
there. -/
theorem events_step_run_take {log : List LogEntry} {n : Nat} {e : LogEntry}
    (h : log[n]? = some e) :
    ((Transactions.run [] (log.take n)).1.step e).2.events.map some =
      (released log n).map (eventAt? log) := by
  have hn : n ≤ log.length := Nat.le_of_lt (List.getElem?_eq_some_iff.mp h).1
  rw [Transactions.events_step]
  by_cases hc : e.code = 2201
  · have hself : ¬ComesOut log n n := by
      rintro ⟨x, hx, hdoc, -⟩
      obtain rfl : e = x := Option.mem_unique h hx
      exact LogEntry.IsControl.not_isDocument (Or.inr (Or.inl hc)) hdoc
    have hreleased : released log n =
        (waiting log n e.transaction).filter fun j => ∃ x ∈ log[j]?, x.HasUsableId := by
      rw [released, waiting, List.range_succ, List.filter_append, List.filter_cons_of_neg
        (by rw [decide_eq_true_iff]; exact hself), List.filter_nil, List.append_nil,
        List.filter_filter]
      refine List.filter_congr fun j hj => ?_
      rw [decide_eq_decide.mpr (comesOut_commit h hc (List.mem_range.mp hj)), Bool.decide_and,
        Bool.and_comm]
    rw [if_pos hc, hreleased, map_eventAt?_filter, heldOf_run_take log n hn]
    intro j hj
    obtain ⟨x, hx, hh, -⟩ := of_decide_eq_true (List.mem_filter.mp hj).2
    exact ⟨x, hx, hh.1⟩
  · rw [if_neg hc]
    have hbefore : (List.range n).filter (fun j => ComesOut log j n) = [] := by
      refine List.filter_eq_nil_iff.mpr fun j hj => ?_
      rw [decide_eq_true_iff, comesOut_of_ne_commit h hc]
      exact fun hj' => absurd hj'.1 (Nat.ne_of_lt (List.mem_range.mp hj))
    rw [released, List.range_succ, List.filter_append, hbefore, List.nil_append]
    by_cases hd : e.IsDocument ∧ e.transaction = standaloneId
    · have hone := map_eventAt?_filter log [n] (by
        intro j hj
        obtain rfl := List.mem_singleton.mp hj
        exact ⟨e, h, hd.1⟩)
      have hcongr : [n].filter (fun j => ComesOut log j n) =
          [n].filter fun j => ∃ x ∈ log[j]?, x.HasUsableId := by
        refine List.filter_congr fun j hj => ?_
        obtain rfl := List.mem_singleton.mp hj
        rw [decide_eq_decide, comesOut_of_ne_commit h hc]
        constructor
        · rintro ⟨-, -, -, hid⟩
          exact ⟨e, h, hid⟩
        · rintro ⟨x, hx, hid⟩
          obtain rfl : e = x := Option.mem_unique h hx
          exact ⟨rfl, hd.1, hd.2, hid⟩
      have hsingle : [n].filterMap (fun j => log[j]?) = [e] := by
        rw [List.filterMap_cons, h]; rfl
      rw [if_pos hd, hcongr, hone, hsingle]
    · rw [if_neg hd, List.filter_cons_of_neg, List.filter_nil]
      · rfl
      · rw [decide_eq_true_iff, comesOut_of_ne_commit h hc]
        exact fun hn => hd ⟨hn.2.1, hn.2.2.1⟩

/-- A log read from the start lets out, entry by entry, what is released there. -/
theorem emissions_eq_released (log : List LogEntry) :
    (Transactions.emissions [] log).map (List.map some) =
      (List.range log.length).map fun i => (released log i).map (eventAt? log) := by
  refine List.ext_getElem? fun i => ?_
  rw [List.getElem?_map, List.getElem?_map, Transactions.getElem?_emissions]
  cases h : log[i]? with
  | none =>
    have hi : log.length ≤ i := List.getElem?_eq_none_iff.mp h
    rw [List.getElem?_eq_none (by rw [List.length_range]; exact hi)]
    rfl
  | some e =>
    have hi : i < log.length := (List.getElem?_eq_some_iff.mp h).1
    rw [List.getElem?_range hi, Option.map_some, Option.map_some, Option.map_some,
      events_step_run_take h]

/-- **Transactional visibility.**  A cursor without open transactions takes in any
batches.  Each call hands out the emissions of its entries one after the other.
While the entry at `i` is processed, exactly the entries released at `i` are
announced, in order of arrival: those for which the first later control entry of
their transaction stands at `i` and is a commit, or the entry at `i` itself when
it stands outside any transaction.  No entry is announced twice, and one that is
released nowhere is never announced. -/
theorem Cursor.emissions_applyAll (tick : Nat) (batches : List (Nat × List LogEntry)) :
    let start : Cursor := { tick }
    let log := batches.flatMap Prod.snd
    (start.applyAll batches).2.map Effect.events =
        (start.emissions batches).map List.flatten ∧
      (start.emissions batches).map List.length = batches.map (fun b => b.2.length) ∧
      (start.emissions batches).flatten.map (List.map some) =
        (List.range log.length).map (fun i => (released log i).map (eventAt? log)) ∧
      (releaseOrder log).Nodup ∧
      ∀ j, j ∈ releaseOrder log ↔ ∃ i, ComesOut log j i := by
  intro start log
  refine ⟨start.events_applyAll batches, start.length_emissions batches, ?_,
    nodup_releaseOrder log, fun j => mem_releaseOrder⟩
  rw [start.flatten_emissions batches]
  exact emissions_eq_released log

/-- A document of transaction `7` waits for the commit; the one outside any
transaction that comes after it overtakes it. -/
example :
    let document (transaction : String) : LogEntry :=
      { code := 2300, transaction, data := .object [("_id", .string "a/1")] }
    releaseOrder [document "7", document "0", { code := 2201, transaction := "7" }] = [1, 0] := by
  decide +kernel

end Docstore
