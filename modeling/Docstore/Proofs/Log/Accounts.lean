import Docstore.Proofs.Log.OneTransaction

/-!
# The accounts of a cursor

Document entries and transactions move between a batch, the transactions that are open
and what comes out.  None is lost on the way and none counted twice.  `Balances` says
so of what happens between two states of the open transactions: the document entries
that come in or were held back are emitted, dropped, discarded or held back
afterwards, and the transactions that were open or are opened are committed, aborted
or open afterwards.

One step balances (`balances_step`), what balances can be put together
(`Balances.append`), and so every run balances.  The transactions of a cursor have no
id twice (`Cursor.IsReachable.nodup_keys`), which is what closing one needs to close
only one.
-/

namespace Docstore

/-! ### Totals over a dictionary -/

namespace Dictionary

variable {β : Type _}

def total (weight : β → Nat) : Dictionary β → Nat
  | [] => 0
  | (_, value) :: rest => weight value + total weight rest

theorem total_one (d : Dictionary β) : total (fun _ => 1) d = d.length := by
  induction d with
  | nil => rfl
  | cons e rest ih => rw [total, ih, List.length_cons, Nat.add_comm]

/-- The new value comes in for the one that was there, if any was. -/
theorem total_put (weight : β → Nat) (d : Dictionary β) (key : String) (value : β) :
    total weight (d.put key value) + ((d.get? key).map weight).getD 0 =
      total weight d + weight value := by
  induction d with
  | nil => rw [put, get?, total]; exact Nat.add_comm _ _
  | cons e rest ih =>
    obtain ⟨k, v⟩ := e
    by_cases hk : k = key
    · rw [put, if_pos hk, get?, if_pos hk, total, total, Option.map_some, Option.getD_some]
      omega
    · rw [put, if_neg hk, get?, if_neg hk, total, total, Nat.add_assoc, ih, Nat.add_assoc]

theorem erase_of_not_mem {d : Dictionary β} {key : String} (h : key ∉ d.keys) :
    d.erase key = d := by
  induction d with
  | nil => rfl
  | cons e rest ih =>
    obtain ⟨k, v⟩ := e
    rw [erase, if_neg (List.ne_of_not_mem_cons h).symm, ih (List.not_mem_of_not_mem_cons h)]

theorem total_erase (weight : β → Nat) {d : Dictionary β} (h : d.keys.Nodup) (key : String) :
    total weight (d.erase key) + ((d.get? key).map weight).getD 0 = total weight d := by
  induction d with
  | nil => rfl
  | cons e rest ih =>
    obtain ⟨k, v⟩ := e
    obtain ⟨hnew, hrest⟩ := List.nodup_cons.mp h
    by_cases hk : k = key
    · subst hk
      rw [erase, if_pos rfl, get?, if_pos rfl, erase_of_not_mem hnew, total, Nat.add_comm]
      rfl
    · rw [erase, if_neg hk, get?, if_neg hk, total, total, Nat.add_assoc, ih hrest]

end Dictionary

namespace Transactions

/-! ### What is counted -/

/-- How many entries are held back in all transactions together. -/
def buffered (pending : Transactions) : Nat := Dictionary.total List.length pending

/-- How many entries an entry discards: all that was held back for its transaction, when it
aborts the transaction or starts it again. -/
def discardedBy (pending : Transactions) (e : LogEntry) : Nat :=
  if e.code = 2200 ∨ e.code = 2202 then (heldOf e.transaction pending).length else 0

/-- How many transactions an entry opens: its own, when that is not open and the entry starts it
or has to be held back for it. -/
def openedBy (pending : Transactions) (e : LogEntry) : Nat :=
  if (e.code = 2200 ∨ e.IsHeld) ∧ isOpen e.transaction pending = false then 1 else 0

def discarded (pending : Transactions) : List LogEntry → Nat
  | [] => 0
  | e :: es => discardedBy pending e + discarded (step pending e).1 es

def opened (pending : Transactions) : List LogEntry → Nat
  | [] => 0
  | e :: es => openedBy pending e + opened (step pending e).1 es

def documents (log : List LogEntry) : Nat := log.countP fun e => decide e.IsDocument

/-! ### What starting, holding back and closing do to the counts -/

theorem weight_heldOf {weight : List LogEntry → Nat} (hempty : weight [] = 0) (tid : String)
    (pending : Transactions) :
    ((Dictionary.get? tid pending).map weight).getD 0 = weight (heldOf tid pending) := by
  rw [heldOf, held?]
  cases Dictionary.get? tid pending with
  | none => exact hempty.symm
  | some es => rfl

theorem isOpen_toNat (tid : String) (pending : Transactions) :
    ((Dictionary.get? tid pending).map fun _ => 1).getD 0 = (isOpen tid pending).toNat := by
  rw [isOpen, Dictionary.has]
  cases Dictionary.get? tid pending <;> rfl

theorem isOpen_eq_true {tid : String} {pending : Transactions} {es : List LogEntry}
    (h : held? tid pending = some es) : isOpen tid pending = true :=
  Option.isSome_iff_exists.mpr ⟨es, h⟩

theorem buffered_put (tid : String) (es : List LogEntry) (pending : Transactions) :
    buffered (Dictionary.put tid es pending) + (heldOf tid pending).length =
      buffered pending + es.length := by
  rw [← weight_heldOf List.length_nil]
  exact Dictionary.total_put List.length pending tid es

theorem count_put (tid : String) (es : List LogEntry) (pending : Transactions) :
    count (Dictionary.put tid es pending) + (isOpen tid pending).toNat = count pending + 1 := by
  rw [← isOpen_toNat, count, count, ← Dictionary.total_one, ← Dictionary.total_one]
  exact Dictionary.total_put (fun _ => 1) pending tid es

theorem buffered_append (e : LogEntry) (pending : Transactions) :
    buffered (append e pending) = buffered pending + 1 := by
  have hput := buffered_put e.transaction (heldOf e.transaction pending ++ [e]) pending
  rw [List.length_append, List.length_singleton] at hput
  show buffered (Dictionary.put e.transaction (heldOf e.transaction pending ++ [e]) pending) = _
  omega

section

variable {pending : Transactions} (h : (Dictionary.keys pending).Nodup) (tid : String)

include h

theorem buffered_close :
    buffered (close tid pending) + (heldOf tid pending).length = buffered pending := by
  rw [← weight_heldOf List.length_nil]
  exact Dictionary.total_erase List.length h tid

theorem count_close :
    count (close tid pending) + (isOpen tid pending).toNat = count pending := by
  rw [← isOpen_toNat, count, count, ← Dictionary.total_one, ← Dictionary.total_one]
  exact Dictionary.total_erase (fun _ => 1) h tid

end

/-! ### What balances -/

/-- Between two states of the open transactions, with this effect, nothing is lost. -/
structure Balances (before : Transactions) (documents discarded opened : Nat) (effect : Effect)
    (after : Transactions) : Prop where
  entries : documents + buffered before =
    effect.tally.emitted + effect.tally.dropped + discarded + buffered after
  transactions : count before + opened =
    effect.tally.committed + effect.tally.aborted + count after

namespace Balances

variable {before mid after : Transactions} {documents discarded opened : Nat}
  {documents' discarded' opened' : Nat} {effect more : Effect}

theorem nil (pending : Transactions) : Balances pending 0 0 0 {} pending where
  entries := by simp
  transactions := by simp

theorem append (h : Balances before documents discarded opened effect mid)
    (h' : Balances mid documents' discarded' opened' more after) :
    Balances before (documents + documents') (discarded + discarded') (opened + opened')
      (effect ++ more) after := by
  obtain ⟨hentries, htransactions⟩ := h
  obtain ⟨hentries', htransactions'⟩ := h'
  constructor
  · simp only [Effect.tally_append, Tally.add_def]
    omega
  · simp only [Effect.tally_append, Tally.add_def]
    omega

end Balances

/-! ### Steps and runs -/

theorem length_events_ofEntries_le (es : List LogEntry) :
    (Effect.ofEntries es).events.length ≤ es.length := List.length_filterMap_le _ _

theorem tally_ofEntries (es : List LogEntry) :
    (Effect.ofEntries es).tally.emitted + (Effect.ofEntries es).tally.dropped = es.length :=
  Nat.add_sub_of_le (length_events_ofEntries_le es)

section

variable {pending : Transactions} {e : LogEntry}

theorem balances_start (hcode : e.code = 2200) {opened : Nat}
    (hopened : opened + (isOpen e.transaction pending).toNat = 1) :
    Balances pending 0 (heldOf e.transaction pending).length opened (step pending e).2
      (step pending e).1 := by
  have hbuffered := buffered_put e.transaction [] pending
  have hcount := count_put e.transaction [] pending
  rw [List.length_nil] at hbuffered
  rw [step_start hcode]
  constructor <;> simp only [start] <;> omega

theorem balances_held (h : e.IsHeld) {opened : Nat}
    (hopened : opened + (isOpen e.transaction pending).toNat = 1) :
    Balances pending 1 0 opened (step pending e).2 (step pending e).1 := by
  have hbuffered := buffered_append e pending
  have hcount := count_put e.transaction
    ((Dictionary.get? e.transaction pending).getD [] ++ [e]) pending
  rw [step_held h]
  constructor <;> simp only [append] at hbuffered ⊢ <;> omega

theorem balances_commit (hkeys : (Dictionary.keys pending).Nodup) (hcode : e.code = 2201) :
    Balances pending 0 0 0 (step pending e).2 (step pending e).1 := by
  cases hheld : held? e.transaction pending with
  | none =>
    rw [step_commit_none hcode hheld]
    exact .nil pending
  | some es =>
    have hbuffered := buffered_close hkeys e.transaction
    have hcount := count_close hkeys e.transaction
    have hout := tally_ofEntries es
    rw [heldOf, hheld, Option.getD_some] at hbuffered
    rw [isOpen_eq_true hheld, Bool.toNat_true] at hcount
    rw [step_commit_some hcode hheld]
    constructor <;> simp only [Effect.tally_append, Tally.add_def]
    · omega
    · show _ = 1 + 0 + (0 + 0) + _
      omega

theorem balances_abort (hkeys : (Dictionary.keys pending).Nodup) (hcode : e.code = 2202) :
    Balances pending 0 (heldOf e.transaction pending).length 0 (step pending e).2
      (step pending e).1 := by
  cases hheld : held? e.transaction pending with
  | none =>
    rw [step_abort_none hcode hheld, heldOf, hheld]
    exact .nil pending
  | some es =>
    have hbuffered := buffered_close hkeys e.transaction
    have hcount := count_close hkeys e.transaction
    rw [isOpen_eq_true hheld, Bool.toNat_true] at hcount
    rw [step_abort_some hcode hheld]
    constructor <;> simp only <;> omega

theorem balances_standalone (h : e.IsDocument) (hs : e.transaction = standaloneId) :
    Balances pending 1 0 0 (step pending e).2 (step pending e).1 := by
  have hout := tally_ofEntries [e]
  rw [List.length_singleton] at hout
  rw [step_standalone h hs]
  refine ⟨?_, (Nat.zero_add _).symm⟩
  simp only
  omega

theorem openedBy_add (h : e.code = 2200 ∨ e.IsHeld) :
    openedBy pending e + (isOpen e.transaction pending).toNat = 1 := by
  cases hopen : isOpen e.transaction pending <;> simp [openedBy, h, hopen]

theorem openedBy_eq_zero (hstart : e.code ≠ 2200) (hheld : ¬e.IsHeld) : openedBy pending e = 0 :=
  if_neg fun h => h.1.elim hstart hheld

theorem discardedBy_eq_zero (hstart : e.code ≠ 2200) (habort : e.code ≠ 2202) :
    discardedBy pending e = 0 := if_neg fun h => h.elim hstart habort

end

/-- **Every step balances.** -/
theorem balances_step {pending : Transactions} (h : (Dictionary.keys pending).Nodup)
    (e : LogEntry) :
    Balances pending (if e.IsDocument then 1 else 0) (discardedBy pending e) (openedBy pending e)
      (step pending e).2 (step pending e).1 := by
  by_cases hd : e.IsDocument
  · have hstart : e.code ≠ 2200 := by rcases hd with hd | hd <;> omega
    have habort : e.code ≠ 2202 := by rcases hd with hd | hd <;> omega
    rw [if_pos hd, discardedBy_eq_zero hstart habort]
    by_cases hs : e.transaction = standaloneId
    · rw [openedBy_eq_zero hstart fun hheld => hheld.2 hs]
      exact balances_standalone hd hs
    · exact balances_held ⟨hd, hs⟩ (openedBy_add (Or.inr ⟨hd, hs⟩))
  have hheld : ¬e.IsHeld := fun hheld => hd hheld.1
  rw [if_neg hd]
  by_cases hc : e.IsControl
  · rcases hc with hstart | hcommit | habort
    · rw [discardedBy, if_pos (Or.inl hstart)]
      exact balances_start hstart (openedBy_add (Or.inl hstart))
    · rw [discardedBy_eq_zero (by omega) (by omega), openedBy_eq_zero (by omega) hheld]
      exact balances_commit h hcommit
    · rw [discardedBy, if_pos (Or.inr habort), openedBy_eq_zero (by omega) hheld]
      exact balances_abort h habort
  · have hcodes := not_or.mp hc
    rw [discardedBy_eq_zero hcodes.1 (not_or.mp hcodes.2).2, openedBy_eq_zero hcodes.1 hheld,
      step_other hc hd]
    exact .nil pending

/-- **Every run balances.** -/
theorem balances_run {pending : Transactions} (h : (Dictionary.keys pending).Nodup)
    (log : List LogEntry) :
    Balances pending (documents log) (discarded pending log) (opened pending log)
      (run pending log).2 (run pending log).1 := by
  induction log generalizing pending with
  | nil => exact .nil pending
  | cons e es ih =>
    have hdocuments : documents (e :: es) = (if e.IsDocument then 1 else 0) + documents es := by
      rw [documents, documents, List.countP_cons, Nat.add_comm]
      simp
    rw [hdocuments, discarded, opened, run_cons]
    exact (balances_step h e).append (ih (nodup_keys_step h e))

end Transactions

namespace Cursor

/-- The cursor comes about in use: it is new, or was moved forward or applied a batch. -/
inductive IsReachable : Cursor → Prop where
  | new (tick : Nat) : IsReachable { tick }
  | advance {c : Cursor} (h : IsReachable c) (tick : Nat) : IsReachable (c.advance tick)
  | apply {c : Cursor} (h : IsReachable c) (last : Nat) (es : List LogEntry) :
      IsReachable (c.apply last es).1

theorem IsReachable.nodup_keys {c : Cursor} (h : c.IsReachable) :
    (Dictionary.keys c.transactions).Nodup := by
  induction h with
  | new => exact List.nodup_nil
  | advance _ tick ih => rwa [transactions_advance]
  | apply _ last es ih =>
    rw [transactions_apply]
    exact Transactions.nodup_keys_run ih es

/-- **The accounts of a batch.**  Of a cursor in use, whatever it is given: every event is
counted; the document entries of the batch and those held back before are emitted,
dropped, discarded or held back afterwards; the transactions open before and those
that the batch opens are committed, aborted or open afterwards. -/
theorem accounts_apply {c : Cursor} (h : c.IsReachable) (last : Nat) (es : List LogEntry) :
    let next := (c.apply last es).1
    let effect := (c.apply last es).2
    effect.tally.emitted = effect.events.length ∧
    Transactions.documents es + c.transactions.buffered =
      effect.tally.emitted + effect.tally.dropped + c.transactions.discarded es +
        next.transactions.buffered ∧
    c.transactions.count + c.transactions.opened es =
      effect.tally.committed + effect.tally.aborted + next.transactions.count := by
  intro next effect
  obtain ⟨hentries, htransactions⟩ := Transactions.balances_run h.nodup_keys es
  have hnext : next.transactions = (c.transactions.run es).1 := transactions_apply c last es
  rw [hnext]
  exact ⟨Transactions.emitted_run c.transactions es, hentries, htransactions⟩

/-- A cursor that holds back an entry of `a` gets a batch in which `a` is started again, `b` is
opened by an entry and commits, an entry has no usable id and an unknown transaction aborts. -/
theorem accounts_apply_mixed :
    let entry (code : Nat) (tid id : String) : LogEntry :=
      { code, transaction := tid, data := .object [("_id", .string id)] }
    let c : Cursor := (({} : Cursor).apply 1 [entry 2300 "a" "users/1"]).1
    let batch : List LogEntry := [entry 2200 "a" "", entry 2300 "b" "users/2",
      entry 2302 "b" "users", entry 2201 "b" "", entry 2202 "x" "", entry 2300 "a" "users/3"]
    c.IsReachable ∧ Transactions.documents batch = 3 ∧ c.transactions.buffered = 1 ∧
      c.transactions.discarded batch = 1 ∧ c.transactions.opened batch = 1 ∧
      3 + 1 = (c.apply 2 batch).2.tally.emitted + (c.apply 2 batch).2.tally.dropped + 1 +
        (c.apply 2 batch).1.transactions.buffered ∧
      1 + 1 = (c.apply 2 batch).2.tally.committed + (c.apply 2 batch).2.tally.aborted +
        (c.apply 2 batch).1.transactions.count := by
  intro entry c batch
  have hc : c.IsReachable := .apply (.new 0) 1 _
  have hdocuments : Transactions.documents batch = 3 := by decide +kernel
  have hbuffered : c.transactions.buffered = 1 := by decide +kernel
  have hdiscarded : c.transactions.discarded batch = 1 := by decide +kernel
  have hopened : c.transactions.opened batch = 1 := by decide +kernel
  have hcount : c.transactions.count = 1 := by decide +kernel
  obtain ⟨-, hentries, htransactions⟩ := accounts_apply hc 2 batch
  rw [hdocuments, hbuffered, hdiscarded] at hentries
  rw [hopened, hcount] at htransactions
  exact ⟨hc, hdocuments, hbuffered, hdiscarded, hopened, hentries, htransactions⟩

end Cursor

end Docstore
