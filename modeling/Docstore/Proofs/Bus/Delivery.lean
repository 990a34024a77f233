import Docstore.Bus.History
import Mathlib.Data.List.Induction

/-!
# What receivers get

The bus has a record of receivers for each collection, and a receiver has a queue
while it is alive.  Sending an event appends it to the queues of those on record
that are alive, and forgets the others.

`Fresh` says that the number of the next receiver was never given out.  `Joined`
says how a receiver stands: it is on record for its own collection and for no other,
with this queue.  Every act but its own drop keeps it so, and what the receiver
takes and has left are the events published for its collection (`Joined.after`).
Since all who listen are on record, and whoever is on record and alive listens
(`listens_iff`), an event that goes out leaves a record exactly when somebody
listens.  `deliveries_after` has both.

Handlers come and go in all this, but neither queues nor records know of them
(`exists_publish_bus_eq`).
-/

namespace Docstore

namespace Bus

/-! ### Queues -/

/-- The receivers that are alive: those with a queue. -/
def owners (b : Bus) : List Nat := b.queues.map Prod.fst

theorem isAlive_iff {b : Bus} {receiver : Nat} :
    b.isAlive receiver = true ↔ receiver ∈ b.owners := by
  rw [isAlive, List.any_eq_true, owners, List.mem_map]
  exact exists_congr fun q => and_congr_right fun _ => beq_iff_eq

theorem mem_owners_of_lookup {b : Bus} {receiver : Nat} {queue : List ChangeEvent}
    (h : b.queues.lookup receiver = some queue) : receiver ∈ b.owners := by
  obtain ⟨before, later, hqueues, -⟩ := List.lookup_eq_some_iff.mp h
  have hmem : (receiver, queue) ∈ b.queues := by
    rw [hqueues]
    exact List.mem_append_right before List.mem_cons_self
  exact List.mem_map_of_mem hmem

section

variable {queues : List (Nat × List ChangeEvent)}

/-- The queue of a receiver after a change of queues that leaves their owners. -/
theorem lookup_map {f : Nat × List ChangeEvent → Nat × List ChangeEvent} (hf : ∀ q, (f q).1 = q.1)
    (receiver : Nat) :
    (queues.map f).lookup receiver =
      (queues.lookup receiver).map fun queue => (f (receiver, queue)).2 := by
  induction queues with
  | nil => rfl
  | cons q rest ih =>
    obtain ⟨owner, queue⟩ := q
    rw [List.map_cons, List.lookup_cons, List.lookup_cons, hf, ih]
    by_cases h : receiver = owner
    · subst h
      simp
    · have hne : (receiver == owner) = false := beq_false_of_ne h
      rw [hne]

theorem map_fst_map {f : Nat × List ChangeEvent → Nat × List ChangeEvent} (hf : ∀ q, (f q).1 = q.1) :
    (queues.map f).map Prod.fst = queues.map Prod.fst := by
  rw [List.map_map]
  exact List.map_congr_left fun q _ => hf q

theorem lookup_filter_of_ne {other receiver : Nat} (h : other ≠ receiver) :
    (queues.filter fun q => q.1 != other).lookup receiver = queues.lookup receiver := by
  induction queues with
  | nil => rfl
  | cons q rest ih =>
    obtain ⟨owner, queue⟩ := q
    by_cases howner : owner = other
    · subst howner
      have hne : (receiver == owner) = false := beq_false_of_ne (Ne.symm h)
      rw [List.filter_cons_of_neg (by simp), ih, List.lookup_cons, hne]
    · rw [List.filter_cons_of_pos (by simpa using howner), List.lookup_cons, List.lookup_cons, ih]

end

/-! ### Sending -/

def recorded (b : Bus) (collection : String) : List Nat :=
  (Dictionary.get? collection b.channels).getD []

def living (b : Bus) (collection : String) : List Nat := (b.recorded collection).filter b.isAlive

theorem mem_living_iff {b : Bus} {collection : String} {receiver : Nat} :
    receiver ∈ b.living collection ↔ receiver ∈ b.recorded collection ∧ receiver ∈ b.owners := by
  rw [living, List.mem_filter, isAlive_iff]

theorem living_of_get?_eq_none {b : Bus} {collection : String}
    (h : Dictionary.get? collection b.channels = none) : b.living collection = [] := by
  rw [living, recorded, h]
  rfl

theorem filter_isAlive_of_get?_eq_some {b : Bus} {collection : String} {receivers : List Nat}
    (h : Dictionary.get? collection b.channels = some receivers) :
    receivers.filter b.isAlive = b.living collection := by
  rw [living, recorded, h]
  rfl

/-- **What sending does to the records**: that of the collection keeps its living
receivers, and is removed when there are none; the others stay as they are. -/
theorem get?_channels_send (b : Bus) (e : ChangeEvent) (collection : String) :
    Dictionary.get? collection (b.send e).channels =
      if e.collection = collection then
        if b.living collection = [] then none else some (b.living collection)
      else Dictionary.get? collection b.channels := by
  cases hrecord : Dictionary.get? e.collection b.channels with
  | none =>
    have hsend : b.send e = b := by simp only [send, hrecord]
    rw [hsend]
    by_cases h : e.collection = collection
    · subst h
      rw [if_pos rfl, if_pos (living_of_get?_eq_none hrecord), hrecord]
    · rw [if_neg h]
  | some receivers =>
    have hsend : (b.send e).channels =
        if b.living e.collection = [] then Dictionary.erase e.collection b.channels
        else Dictionary.put e.collection (b.living e.collection) b.channels := by
      simp only [send, hrecord, filter_isAlive_of_get?_eq_some hrecord, List.isEmpty_iff]
    rw [hsend]
    by_cases hempty : b.living e.collection = []
    · rw [if_pos hempty, Dictionary.get?_erase]
      by_cases h : e.collection = collection
      · subst h
        rw [if_pos rfl, if_pos rfl, if_pos hempty]
      · rw [if_neg h, if_neg h]
    · rw [if_neg hempty, Dictionary.get?_put]
      by_cases h : e.collection = collection
      · subst h
        rw [if_pos rfl, if_pos rfl, if_neg hempty]
      · rw [if_neg h, if_neg h]

theorem recorded_send (b : Bus) (e : ChangeEvent) (collection : String) :
    (b.send e).recorded collection =
      if e.collection = collection then b.living collection else b.recorded collection := by
  rw [recorded, get?_channels_send]
  by_cases h : e.collection = collection
  · rw [if_pos h, if_pos h]
    by_cases hempty : b.living collection = []
    · rw [if_pos hempty, hempty]
      rfl
    · rw [if_neg hempty]
      rfl
  · rw [if_neg h, if_neg h]
    rfl

theorem hasChannel_send (b : Bus) (e : ChangeEvent) :
    (b.send e).hasChannel e.collection = true ↔ ∃ receiver, receiver ∈ b.living e.collection := by
  rw [hasChannel, Dictionary.has, get?_channels_send, if_pos rfl]
  by_cases hempty : b.living e.collection = []
  · rw [if_pos hempty, hempty]
    simp
  · rw [if_neg hempty]
    exact ⟨fun _ => List.exists_mem_of_ne_nil _ hempty, fun _ => rfl⟩

theorem queues_send (b : Bus) (e : ChangeEvent) :
    (b.send e).queues =
      b.queues.map fun q => if q.1 ∈ b.living e.collection then (q.1, q.2 ++ [e]) else q := by
  cases hrecord : Dictionary.get? e.collection b.channels with
  | none => simp [send, hrecord, living_of_get?_eq_none hrecord]
  | some receivers => simp only [send, hrecord, filter_isAlive_of_get?_eq_some hrecord]

theorem lookup_send (b : Bus) (e : ChangeEvent) (receiver : Nat) :
    (b.send e).queues.lookup receiver = (b.queues.lookup receiver).map fun queue =>
      if receiver ∈ b.living e.collection then queue ++ [e] else queue := by
  rw [queues_send, lookup_map (by intro q; split <;> rfl)]
  refine congrArg (fun f => Option.map f _) (funext fun queue => ?_)
  split <;> rfl

theorem owners_send (b : Bus) (e : ChangeEvent) : (b.send e).owners = b.owners := by
  rw [owners, queues_send]
  exact map_fst_map (by intro q; split <;> rfl)

theorem next_send (b : Bus) (e : ChangeEvent) : (b.send e).next = b.next := by
  rw [send]
  split <;> rfl

/-! ### Handlers -/

theorem exists_registerAll_eq (b : Bus) (hs : List (Topic × Handler)) :
    ∃ handlers catchAll, b.registerAll hs = { b with handlers, catchAll } := by
  induction hs generalizing b with
  | nil => exact ⟨b.handlers, b.catchAll, rfl⟩
  | cons h hs ih =>
    obtain ⟨topic, h⟩ := h
    obtain ⟨handlers, catchAll, heq⟩ := ih (b.register topic h)
    refine ⟨handlers, catchAll, ?_⟩
    show (b.register topic h).registerAll hs = _
    rw [heq]
    cases topic <;> rfl

/-- **A publication is a sending** to receivers: the handlers that are called change
nothing but the lists of handlers. -/
theorem exists_publish_bus_eq (b : Bus) (e : ChangeEvent) :
    ∃ handlers catchAll, (b.publish e).bus = ({ b with handlers, catchAll } : Bus).send e := by
  have hcalls : ∀ (hs : List Handler) (b : Bus),
      ∃ handlers catchAll, hs.foldl call b = { b with handlers, catchAll } := by
    intro hs
    induction hs with
    | nil => exact fun b => ⟨b.handlers, b.catchAll, rfl⟩
    | cons h hs ih =>
      intro b
      obtain ⟨handlers, catchAll, hcall⟩ := b.exists_registerAll_eq h.registers
      obtain ⟨handlers', catchAll', hrest⟩ := ih (b.call h)
      refine ⟨handlers', catchAll', ?_⟩
      rw [List.foldl_cons, hrest, call, hcall]
  obtain ⟨handlers, catchAll, heq⟩ := hcalls (b.reached e.collection) b
  refine ⟨handlers, catchAll, ?_⟩
  show ((b.reached e.collection).foldl call b).send e = _
  rw [heq]

theorem exists_act_eq_send {a : Act} {e : ChangeEvent} (h : a.event? = some e) (b : Bus) :
    ∃ handlers catchAll, b.act a = ({ b with handlers, catchAll } : Bus).send e := by
  cases a with
  | publish e' =>
    obtain rfl := Option.some.inj h
    exact b.exists_publish_bus_eq e'
  | send e' =>
    obtain rfl := Option.some.inj h
    exact ⟨b.handlers, b.catchAll, rfl⟩
  | _ => exact absurd h (by simp [Act.event?])

/-! ### Subscribing, receiving and dropping -/

theorem recorded_subscribe (b : Bus) (collection other : String) :
    (b.subscribe collection).1.recorded other =
      if collection = other then b.recorded other ++ [b.next] else b.recorded other := by
  rw [recorded, subscribe, Dictionary.get?_put]
  by_cases h : collection = other
  · rw [if_pos h, if_pos h, ← h]
    rfl
  · rw [if_neg h, if_neg h]
    rfl

theorem mem_recorded_subscribe_iff {b : Bus} {collection other : String} {receiver : Nat} :
    receiver ∈ (b.subscribe collection).1.recorded other ↔
      receiver ∈ b.recorded other ∨ collection = other ∧ receiver = b.next := by
  rw [recorded_subscribe]
  by_cases h : collection = other
  · simp [h]
  · simp [h]

theorem owners_subscribe (b : Bus) (collection : String) :
    (b.subscribe collection).1.owners = b.owners ++ [b.next] := List.map_append

theorem lookup_receive (b : Bus) (other receiver : Nat) :
    (b.receive other).1.queues.lookup receiver =
      if other = receiver then (b.queues.lookup receiver).map List.tail
      else b.queues.lookup receiver := by
  cases hqueue : b.queues.lookup other with
  | none =>
    have hreceive : b.receive other = (b, .disconnected) := by simp only [receive, hqueue]
    rw [hreceive]
    split
    · next h => rw [← h, hqueue]; rfl
    · rfl
  | some queue =>
    cases queue with
    | nil =>
      have hreceive : b.receive other = (b, .nothing) := by simp only [receive, hqueue]
      rw [hreceive]
      split
      · next h => rw [← h, hqueue]; rfl
      · rfl
    | cons e rest =>
      have hqueues : (b.receive other).1.queues =
          b.queues.map fun q => if q.1 = other then (q.1, rest) else q := by
        simp only [receive, hqueue]
      rw [hqueues, lookup_map (by intro q; split <;> rfl)]
      by_cases h : other = receiver
      · subst h
        simp [hqueue]
      · have hne : ¬receiver = other := Ne.symm h
        simp [h, hne]

theorem owners_receive (b : Bus) (receiver : Nat) : (b.receive receiver).1.owners = b.owners := by
  rw [receive]
  split
  · rfl
  · rfl
  · exact map_fst_map (by intro q; split <;> rfl)

theorem channels_receive (b : Bus) (receiver : Nat) :
    (b.receive receiver).1.channels = b.channels := by
  rw [receive]
  split <;> rfl

theorem next_receive (b : Bus) (receiver : Nat) : (b.receive receiver).1.next = b.next := by
  rw [receive]
  split <;> rfl

theorem mem_owners_dropReceiver_iff {b : Bus} {other receiver : Nat} :
    receiver ∈ (b.dropReceiver other).owners ↔ receiver ∈ b.owners ∧ receiver ≠ other := by
  simp only [owners, dropReceiver, List.mem_map, List.mem_filter, bne_iff_ne]
  constructor
  · rintro ⟨q, ⟨hq, hne⟩, rfl⟩
    exact ⟨⟨q, hq, rfl⟩, hne⟩
  · rintro ⟨⟨q, hq, rfl⟩, hne⟩
    exact ⟨q, ⟨hq, hne⟩, rfl⟩

/-! ### Numbers that are not given out yet -/

/-- Whoever is on record or alive has a number below the next one. -/
structure Fresh (b : Bus) : Prop where
  recorded : ∀ collection, ∀ receiver ∈ b.recorded collection, receiver < b.next
  owners : ∀ receiver ∈ b.owners, receiver < b.next

namespace Fresh

theorem empty : Fresh {} :=
  ⟨fun _ _ h => absurd h List.not_mem_nil, fun _ h => absurd h List.not_mem_nil⟩

theorem send {b : Bus} (h : b.Fresh) (e : ChangeEvent) : (b.send e).Fresh := by
  constructor
  · intro collection receiver hr
    rw [next_send]
    rw [recorded_send] at hr
    split at hr
    · exact h.recorded collection receiver (mem_living_iff.mp hr).1
    · exact h.recorded collection receiver hr
  · intro receiver hr
    rw [owners_send] at hr
    rw [next_send]
    exact h.owners receiver hr

theorem subscribe {b : Bus} (h : b.Fresh) (collection : String) :
    (b.subscribe collection).1.Fresh := by
  constructor
  · intro other receiver hr
    show receiver < b.next + 1
    rcases mem_recorded_subscribe_iff.mp hr with hr | ⟨-, rfl⟩
    · exact Nat.lt_succ_of_lt (h.recorded other receiver hr)
    · exact Nat.lt_succ_self _
  · intro receiver hr
    show receiver < b.next + 1
    rw [owners_subscribe] at hr
    rcases List.mem_append.mp hr with hr | hr
    · exact Nat.lt_succ_of_lt (h.owners receiver hr)
    · rw [List.mem_singleton.mp hr]
      exact Nat.lt_succ_self _

theorem act {b : Bus} (h : b.Fresh) (a : Act) : (b.act a).Fresh := by
  cases a with
  | register topic handler => cases topic <;> exact ⟨h.recorded, h.owners⟩
  | subscribe collection => exact h.subscribe collection
  | publish e =>
    obtain ⟨handlers, catchAll, heq⟩ := b.exists_publish_bus_eq e
    have hkept : ({ b with handlers, catchAll } : Bus).Fresh := ⟨h.recorded, h.owners⟩
    show (b.publish e).bus.Fresh
    rw [heq]
    exact hkept.send e
  | send e => exact h.send e
  | receive other =>
    constructor
    · intro collection receiver hr
      show receiver < (b.receive other).1.next
      rw [next_receive]
      refine h.recorded collection receiver ?_
      rw [Bus.recorded, ← b.channels_receive other]
      exact hr
    · intro receiver hr
      show receiver < (b.receive other).1.next
      rw [next_receive]
      exact h.owners receiver (b.owners_receive other ▸ hr)
  | drop other =>
    exact ⟨h.recorded, fun receiver hr => h.owners receiver (mem_owners_dropReceiver_iff.mp hr).1⟩

end Fresh

theorem fresh_after (history : List Act) : (({} : Bus).after history).Fresh := by
  induction history using List.reverseRecOn with
  | nil => exact .empty
  | append_singleton history a ih =>
    rw [after_concat]
    exact ih.act a

/-! ### A receiver and its queue -/

/-- The receiver is alive with this queue, and on record for one collection only. -/
structure Joined (b : Bus) (collection : String) (receiver : Nat) (queue : List ChangeEvent) :
    Prop where
  queue : b.queues.lookup receiver = some queue
  recorded : ∀ other, receiver ∈ b.recorded other ↔ other = collection
  known : receiver < b.next

theorem Fresh.joined_subscribe {b : Bus} (h : b.Fresh) (collection : String) :
    (b.subscribe collection).1.Joined collection (b.subscribe collection).2 [] := by
  have hnew : b.queues.lookup b.next = none := by
    cases hqueue : b.queues.lookup b.next with
    | none => rfl
    | some queue => exact absurd (h.owners _ (mem_owners_of_lookup hqueue)) (Nat.lt_irrefl _)
  constructor
  · show (b.queues ++ [(b.next, [])]).lookup b.next = some []
    rw [List.lookup_append, hnew, List.lookup_cons_self]
    rfl
  · intro other
    show b.next ∈ _ ↔ _
    rw [mem_recorded_subscribe_iff]
    constructor
    · rintro (hold | ⟨rfl, -⟩)
      · exact absurd (h.recorded other _ hold) (Nat.lt_irrefl _)
      · rfl
    · rintro rfl
      exact Or.inr ⟨rfl, rfl⟩
  · exact Nat.lt_succ_self _

namespace Joined

variable {b : Bus} {collection : String} {receiver : Nat} {queue : List ChangeEvent}

theorem mem_owners (h : b.Joined collection receiver queue) : receiver ∈ b.owners :=
  mem_owners_of_lookup h.queue

theorem mem_living_iff (h : b.Joined collection receiver queue) (other : String) :
    receiver ∈ b.living other ↔ other = collection := by
  rw [Bus.mem_living_iff, h.recorded]
  exact and_iff_left h.mem_owners

theorem send (h : b.Joined collection receiver queue) (e : ChangeEvent) :
    (b.send e).Joined collection receiver
      (queue ++ if e.collection = collection then [e] else []) := by
  constructor
  · rw [lookup_send, h.queue, Option.map_some]
    refine congrArg some ?_
    by_cases he : e.collection = collection
    · rw [if_pos he, if_pos ((h.mem_living_iff _).mpr he)]
    · rw [if_neg he, if_neg (fun hl => he ((h.mem_living_iff _).mp hl)), List.append_nil]
  · intro other
    rw [recorded_send]
    split
    · exact h.mem_living_iff other
    · exact h.recorded other
  · rw [next_send]
    exact h.known

theorem subscribe (h : b.Joined collection receiver queue) (other : String) :
    (b.subscribe other).1.Joined collection receiver queue := by
  have hne : receiver ≠ b.next := Nat.ne_of_lt h.known
  constructor
  · show (b.queues ++ [(b.next, [])]).lookup receiver = some queue
    rw [List.lookup_append, h.queue]
    rfl
  · intro third
    rw [mem_recorded_subscribe_iff, h.recorded]
    exact or_iff_left fun hnew => hne hnew.2
  · exact Nat.lt_succ_of_lt h.known

theorem receive (h : b.Joined collection receiver queue) (other : Nat) :
    (b.receive other).1.Joined collection receiver (if other = receiver then queue.tail else queue) := by
  constructor
  · rw [lookup_receive, h.queue]
    split <;> rfl
  · intro third
    rw [Bus.recorded, channels_receive]
    exact h.recorded third
  · rw [next_receive]
    exact h.known

theorem dropReceiver (h : b.Joined collection receiver queue) {other : Nat} (hne : other ≠ receiver) :
    (b.dropReceiver other).Joined collection receiver queue :=
  ⟨(lookup_filter_of_ne hne).trans h.queue, h.recorded, h.known⟩

theorem taken_receive (h : b.Joined collection receiver queue) (other : Nat) :
    b.taken receiver (.receive other) = if other = receiver then queue.take 1 else [] := by
  rw [taken]
  split
  · cases queue with
    | nil => simp [Bus.receive, h.queue, Received.event?]
    | cons e rest => simp [Bus.receive, h.queue, Received.event?]
  · rfl

/-- **One act**: what the receiver takes, followed by the queue it has afterwards, is
the queue it had, followed by what the act publishes for its collection. -/
theorem act (h : b.Joined collection receiver queue) {a : Act} (hlive : a ≠ .drop receiver) :
    ∃ left, (b.act a).Joined collection receiver left ∧
      b.taken receiver a ++ left = queue ++ published collection [a] := by
  have hsent : ∀ e : ChangeEvent, [e].filter (fun e => e.collection = collection) =
      if e.collection = collection then [e] else [] := by
    intro e
    by_cases he : e.collection = collection
    · rw [List.filter_cons_of_pos (by simpa using he), if_pos he, List.filter_nil]
    · rw [List.filter_cons_of_neg (by simpa using he), if_neg he, List.filter_nil]
  cases a with
  | register topic handler =>
    refine ⟨queue, ?_, (List.append_nil queue).symm⟩
    cases topic <;> exact ⟨h.queue, h.recorded, h.known⟩
  | subscribe other => exact ⟨queue, h.subscribe other, (List.append_nil queue).symm⟩
  | publish e =>
    obtain ⟨handlers, catchAll, heq⟩ := b.exists_publish_bus_eq e
    have hkept : ({ b with handlers, catchAll } : Bus).Joined collection receiver queue :=
      ⟨h.queue, h.recorded, h.known⟩
    refine ⟨_, ?_, congrArg (queue ++ ·) (hsent e).symm⟩
    show (b.publish e).bus.Joined _ _ _
    rw [heq]
    exact hkept.send e
  | send e => exact ⟨_, h.send e, congrArg (queue ++ ·) (hsent e).symm⟩
  | receive other =>
    refine ⟨_, h.receive other, ?_⟩
    have hnothing : published collection [.receive other] = [] := rfl
    rw [h.taken_receive, hnothing, List.append_nil]
    by_cases hown : other = receiver
    · rw [if_pos hown, if_pos hown, ← List.drop_one]
      exact List.take_append_drop 1 queue
    · rw [if_neg hown, if_neg hown, List.nil_append]
  | drop other =>
    have hne : other ≠ receiver := fun heq => hlive (congrArg Act.drop heq)
    exact ⟨queue, h.dropReceiver hne, (List.append_nil queue).symm⟩

/-- **A run of acts**: as long as the receiver is not dropped, nothing is lost and
nothing comes twice. -/
theorem after (h : b.Joined collection receiver queue) {later : List Act}
    (hlive : .drop receiver ∉ later) :
    ∃ left, (b.after later).Joined collection receiver left ∧
      b.received receiver later ++ left = queue ++ published collection later := by
  induction later generalizing b queue with
  | nil => exact ⟨queue, h, (List.append_nil queue).symm⟩
  | cons a later ih =>
    rw [List.mem_cons, not_or] at hlive
    obtain ⟨mid, hmid, hone⟩ := h.act (Ne.symm hlive.1)
    obtain ⟨left, hleft, hmore⟩ := ih hmid hlive.2
    refine ⟨left, hleft, ?_⟩
    calc b.taken receiver a ++ (b.act a).received receiver later ++ left
        = b.taken receiver a ++ ((b.act a).received receiver later ++ left) :=
          List.append_assoc ..
      _ = b.taken receiver a ++ mid ++ published collection later := by
          rw [hmore, List.append_assoc]
      _ = queue ++ published collection [a] ++ published collection later := by rw [hone]
      _ = queue ++ published collection (a :: later) := by
          rw [List.append_assoc, ← published_cons]

end Joined

/-! ### Who listens -/

theorem after_subscribe (before later : List Act) (collection : String) :
    ({} : Bus).after (before ++ .subscribe collection :: later) =
      ((({} : Bus).after before).subscribe collection).1.after later :=
  after_append {} before (.subscribe collection :: later)

theorem listens_concat {history : List Act} {collection : String} {receiver : Nat} {a : Act}
    (h : Listens history collection receiver) (ha : a ≠ .drop receiver) :
    Listens (history ++ [a]) collection receiver := by
  obtain ⟨before, later, rfl, hnumber, hlive⟩ := h
  refine ⟨before, later ++ [a], by simp, hnumber, ?_⟩
  rw [List.mem_append, List.mem_singleton, not_or]
  exact ⟨hlive, Ne.symm ha⟩

theorem mem_living_of_listens {history : List Act} {collection : String} {receiver : Nat}
    (h : Listens history collection receiver) :
    receiver ∈ (({} : Bus).after history).living collection := by
  obtain ⟨before, later, rfl, rfl, hlive⟩ := h
  obtain ⟨queue, hjoined, -⟩ := ((fresh_after before).joined_subscribe collection).after hlive
  rw [after_subscribe]
  exact (hjoined.mem_living_iff collection).mpr rfl

theorem mem_living_of_act {b : Bus} (hfresh : b.Fresh) {a : Act} {collection : String}
    {receiver : Nat} (h : receiver ∈ (b.act a).living collection) :
    (receiver ∈ b.living collection ∧ a ≠ .drop receiver) ∨
      a = .subscribe collection ∧ receiver = b.next := by
  obtain ⟨hrecord, halive⟩ := mem_living_iff.mp h
  have hsend : ∀ {c : Bus} {e : ChangeEvent}, receiver ∈ (c.send e).recorded collection →
      receiver ∈ c.recorded collection := by
    intro c e hr
    rw [recorded_send] at hr
    split at hr
    · exact (mem_living_iff.mp hr).1
    · exact hr
  cases a with
  | register topic handler =>
    refine Or.inl ⟨mem_living_iff.mpr ?_, Act.noConfusion⟩
    cases topic <;> exact ⟨hrecord, halive⟩
  | subscribe other =>
    rcases mem_recorded_subscribe_iff.mp hrecord with hold | ⟨rfl, rfl⟩
    · refine Or.inl ⟨mem_living_iff.mpr ⟨hold, ?_⟩, Act.noConfusion⟩
      have hne : receiver ≠ b.next := Nat.ne_of_lt (hfresh.recorded collection receiver hold)
      have hmem : receiver ∈ b.owners ++ [b.next] := b.owners_subscribe other ▸ halive
      exact (List.mem_append.mp hmem).resolve_right fun hnew => hne (List.mem_singleton.mp hnew)
    · exact Or.inr ⟨rfl, rfl⟩
  | publish e =>
    obtain ⟨handlers, catchAll, heq⟩ := b.exists_publish_bus_eq e
    have hact : b.act (.publish e) = ({ b with handlers, catchAll } : Bus).send e := heq
    rw [hact] at hrecord halive
    rw [owners_send] at halive
    have hrecord' : receiver ∈ ({ b with handlers, catchAll } : Bus).recorded collection :=
      hsend hrecord
    exact Or.inl ⟨mem_living_iff.mpr ⟨hrecord', halive⟩, Act.noConfusion⟩
  | send e =>
    have halive' : receiver ∈ b.owners := b.owners_send e ▸ halive
    exact Or.inl ⟨mem_living_iff.mpr ⟨hsend hrecord, halive'⟩, Act.noConfusion⟩
  | receive other =>
    have halive' : receiver ∈ b.owners := b.owners_receive other ▸ halive
    have hrecord' : receiver ∈ b.recorded collection := by
      rw [recorded, ← b.channels_receive other]
      exact hrecord
    exact Or.inl ⟨mem_living_iff.mpr ⟨hrecord', halive'⟩, Act.noConfusion⟩
  | drop other =>
    obtain ⟨halive', hne⟩ := mem_owners_dropReceiver_iff.mp halive
    exact Or.inl ⟨mem_living_iff.mpr ⟨hrecord, halive'⟩, fun heq => hne (Act.drop.inj heq).symm⟩

/-- **Those on record for a collection who are alive are those who listen to it.** -/
theorem listens_iff {history : List Act} {collection : String} {receiver : Nat} :
    Listens history collection receiver ↔
      receiver ∈ (({} : Bus).after history).living collection := by
  refine ⟨mem_living_of_listens, fun h => ?_⟩
  induction history using List.reverseRecOn with
  | nil => exact absurd (mem_living_iff.mp h).2 List.not_mem_nil
  | append_singleton history a ih =>
    rw [after_concat] at h
    rcases mem_living_of_act (fresh_after history) h with ⟨hold, ha⟩ | ⟨rfl, rfl⟩
    · exact listens_concat (ih hold) ha
    · exact ⟨history, [], rfl, rfl, List.not_mem_nil⟩

/-- **Receivers lose nothing and see nothing twice.**  Whoever subscribes to a
collection has, as long as it is not dropped, a queue; what it has received so far
followed by that queue are the events published for the collection since then, in
order.  And right after an event has gone out there is a record for its collection
exactly when somebody listens to it, while the records of the others are as before.

This holds whatever handlers there are and whatever they do, and whatever else
happens to the bus between the calls of the handlers and the sending. -/
theorem deliveries_after :
    (∀ (before later : List Act) (collection : String),
      let joined := (({} : Bus).after before).subscribe collection
      .drop joined.2 ∉ later →
        ∃ queue, (joined.1.after later).queues.lookup joined.2 = some queue ∧
          joined.1.received joined.2 later ++ queue = published collection later) ∧
    ∀ (history : List Act) (a : Act) (e : ChangeEvent), a.event? = some e →
      let b := ({} : Bus).after history
      ((b.act a).hasChannel e.collection = true ↔
        ∃ receiver, Listens history e.collection receiver) ∧
      ∀ other, other ≠ e.collection →
        Dictionary.get? other (b.act a).channels = Dictionary.get? other b.channels := by
  constructor
  · intro before later collection joined hlive
    obtain ⟨queue, hjoined, hall⟩ :=
      ((fresh_after before).joined_subscribe collection).after hlive
    exact ⟨queue, hjoined.queue, hall⟩
  · intro history a e ha b
    obtain ⟨handlers, catchAll, hact⟩ := exists_act_eq_send ha b
    rw [hact]
    constructor
    · rw [hasChannel_send]
      exact exists_congr fun receiver => listens_iff.symm
    · intro other hne
      rw [get?_channels_send, if_neg (Ne.symm hne)]

/-- A handler crashes and leaves another one behind, an event of another collection goes
by, a neighbour subscribes and is dropped: the receiver has taken the first event of its
collection and finds the second in its queue. -/
theorem deliveries_after_crash :
    let event (collection : String) (tick : Nat) : ChangeEvent :=
      { collection, document := .null, kind := .delete, tick }
    let crashing : Handler := .mk "first" [(.all, .mk "second" [] false)] true
    let before : List Act := [.register (.collection "users") crashing, .subscribe "users"]
    let later : List Act := [.publish (event "users" 1), .subscribe "users", .receive 1,
      .drop 0, .publish (event "orders" 2), .send (event "users" 3), .drop 2]
    let joined := (({} : Bus).after before).subscribe "users"
    let last := joined.1.after later
    (∃ queue, last.queues.lookup 1 = some queue ∧
      joined.1.received 1 later ++ queue = [event "users" 1, event "users" 3]) ∧
    joined.1.received 1 later = [event "users" 1] ∧
    ((last.act (.publish (event "users" 4))).hasChannel "users" = true ↔
      ∃ receiver, Listens (before ++ .subscribe "users" :: later) "users" receiver) := by
  intro event crashing before later joined last
  have hnumber : joined.2 = 1 := rfl
  have hlive : .drop joined.2 ∉ later := by
    rw [hnumber]
    simp [later]
  have hpublished : published "users" later = [event "users" 1, event "users" 3] := rfl
  have hqueue := deliveries_after.1 before later "users" hlive
  have hreceived : joined.1.received 1 later = [event "users" 1] := by decide +kernel
  have hrecord := (deliveries_after.2 (before ++ .subscribe "users" :: later)
    (.publish (event "users" 4)) (event "users" 4) rfl).1
  rw [after_subscribe] at hrecord
  rw [hpublished] at hqueue
  exact ⟨hqueue, hreceived, hrecord⟩

end Bus

end Docstore
