import Docstore.Proofs.Bus.Calls
import Docstore.Proofs.Bus.Delivery

/-!
# What receivers get of publications

Publications that are interleaved in any way send their events when they are
finished, and nothing else in a history sends one.  To the queues each moment is
an act on the bus or nothing at all (`Step.bus_eq`), so `Bus.Joined` is kept along
every history.  The events are told by the numbers of the publications: those that
began have their events for good (`Run.events`).
-/

namespace Docstore

/-- What a moment does to the bus of the traffic, if anything. -/
def Moment.act? (t : Traffic) : Moment → Option Bus.Act
  | .registers topic h => some (.register topic h)
  | .finishes p _ => (t.publications[p]?).map fun q => .send q.event
  | .subscribes collection _ => some (.subscribe collection)
  | .receives receiver _ => some (.receive receiver)
  | .drops receiver => some (.drop receiver)
  | .begins _ | .calls _ _ | .ends _ _ => none

namespace Traffic

variable {t u : Traffic} {m : Moment} {ms : List Moment}

theorem Step.bus_eq (h : Step t m u) : u.bus = (m.act? t).elim t.bus t.bus.act := by
  cases h with
  | finishes hq => simp only [Moment.act?, hq, Option.map_some, Option.elim_some]; rfl
  | _ => rfl

/-! ### The events of publications -/

theorem map_event_put {p : Nat} {q : Publication} (hq : t.publications[p]? = some q)
    (q' : Publication) (hevent : q'.event = q.event) :
    (t.put p q').publications.map Publication.event =
      t.publications.map Publication.event ++ [] := by
  obtain ⟨hlt, hget⟩ := List.getElem?_eq_some_iff.mp hq
  rw [List.append_nil]
  refine List.ext_getElem (by simp [put]) fun i hi _ => ?_
  simp only [put, List.getElem_map, List.getElem_set]
  split
  · next hpi => subst hpi; rw [hevent, hget]
  · rfl

theorem Step.events (h : Step t m u) :
    u.publications.map Publication.event =
      t.publications.map Publication.event ++ m.begun?.toList := by
  cases h with
  | begins => exact List.map_append
  | calls hq => exact map_event_put hq _ rfl
  | ends hq => exact map_event_put hq _ rfl
  | finishes hq => exact map_event_put hq _ rfl
  | _ => exact (List.append_nil _).symm

theorem getElem?_map_event {p : Nat} {q : Publication} (hq : t.publications[p]? = some q) :
    (t.publications.map Publication.event)[p]? = some q.event := by
  rw [List.getElem?_map, hq]
  rfl

theorem Step.event_eq (h : Step t m u) {p : Nat} {q q' : Publication}
    (hq : t.publications[p]? = some q) (hq' : u.publications[p]? = some q') :
    q'.event = q.event := by
  have hevent := getElem?_map_event hq
  have hevent' := getElem?_map_event hq'
  rw [h.events, List.getElem?_append_left (List.getElem?_eq_some_iff.mp hevent).1] at hevent'
  exact Option.some.inj (hevent'.symm.trans hevent)

theorem Run.events (h : Run t ms u) :
    u.publications.map Publication.event =
      t.publications.map Publication.event ++ Traffic.events ms := by
  induction h with
  | nil => exact (List.append_nil _).symm
  | @cons t u v m ms hstep _ ih =>
    rw [ih, hstep.events, List.append_assoc]
    cases hm : m.begun? <;> simp [Traffic.events, hm]

/-! ### Queues -/

theorem Step.fresh (h : Step t m u) (hfresh : t.bus.Fresh) : u.bus.Fresh := by
  rw [h.bus_eq]
  cases m.act? t with
  | none => exact hfresh
  | some a => exact hfresh.act a

theorem Run.fresh (h : Run t ms u) (hfresh : t.bus.Fresh) : u.bus.Fresh := by
  induction h with
  | nil => exact hfresh
  | cons hstep _ ih => exact ih (hstep.fresh hfresh)

section

variable {events : List ChangeEvent} {collection : String} {receiver : Nat}
  {queue : List ChangeEvent}

/-- **One moment**: what the receiver takes, followed by the queue it has afterwards, is
the queue it had, followed by what is sent for its collection. -/
theorem Step.joined (h : Step t m u) (hj : t.bus.Joined collection receiver queue)
    (hlive : m ≠ .drops receiver) (hevents : t.publications.map Publication.event <+: events) :
    ∃ left, u.bus.Joined collection receiver left ∧
      (m.taken? receiver).toList ++ left =
        queue ++ (m.sent? events).toList.filter fun e => e.collection = collection := by
  cases h with
  | registers topic handler => exact hj.act (a := .register topic handler) Bus.Act.noConfusion
  | @finishes p q hq =>
    have hsent : (Moment.finishes p q.crashed).sent? events = some q.event := by
      obtain ⟨later, rfl⟩ := hevents
      have hevent := getElem?_map_event hq
      exact (List.getElem?_append_left (List.getElem?_eq_some_iff.mp hevent).1).trans hevent
    rw [hsent]
    exact hj.act (a := .send q.event) Bus.Act.noConfusion
  | subscribes other => exact hj.act (a := .subscribe other) Bus.Act.noConfusion
  | receives other =>
    obtain ⟨left, hleft, htaken⟩ := hj.act (a := .receive other) Bus.Act.noConfusion
    refine ⟨left, hleft, Eq.trans ?_ htaken⟩
    rw [Moment.taken?, Bus.taken]
    by_cases hown : other = receiver
    · subst hown
      rw [if_pos rfl, if_pos rfl]
    · rw [if_neg hown, if_neg hown]
      rfl
  | drops other =>
    exact hj.act (a := .drop other) fun heq => hlive (congrArg Moment.drops (Bus.Act.drop.inj heq))
  | _ => exact ⟨queue, hj, (List.append_nil queue).symm⟩

/-- **A history**: the same, for all its moments. -/
theorem Run.joined (h : Run t ms u) (hj : t.bus.Joined collection receiver queue)
    (hlive : .drops receiver ∉ ms) (hevents : u.publications.map Publication.event <+: events) :
    ∃ left, u.bus.Joined collection receiver left ∧
      taken receiver ms ++ left =
        queue ++ (ms.filterMap (Moment.sent? events)).filter
          fun e => e.collection = collection := by
  induction h generalizing queue with
  | nil => exact ⟨queue, hj, (List.append_nil queue).symm⟩
  | @cons t u v m ms hstep hrest ih =>
    rw [List.mem_cons, not_or] at hlive
    have hmid : u.publications.map Publication.event <+: events := by
      rw [hrest.events] at hevents
      exact (List.prefix_append _ _).trans hevents
    have hbefore : t.publications.map Publication.event <+: events := by
      rw [hstep.events] at hmid
      exact (List.prefix_append _ _).trans hmid
    obtain ⟨mid, hjoined, hone⟩ := hstep.joined hj (Ne.symm hlive.1) hbefore
    obtain ⟨left, hleft, hmore⟩ := ih hjoined hlive.2 hevents
    have htaken : taken receiver (m :: ms) = (m.taken? receiver).toList ++ taken receiver ms := by
      cases htaken : m.taken? receiver <;> simp [taken, htaken]
    have hsent : (m :: ms).filterMap (Moment.sent? events) =
        (m.sent? events).toList ++ ms.filterMap (Moment.sent? events) := by
      cases hsent : m.sent? events <;> simp [hsent]
    refine ⟨left, hleft, ?_⟩
    rw [htaken, hsent, List.filter_append, List.append_assoc, hmore, ← List.append_assoc, hone,
      List.append_assoc]

/-- **What a receiver gets of publications**: as long as it is not dropped, what it has
taken and what it has in its queue are the events for its collection of the publications
that were finished since it joined, in that order, whoever published them and whatever
the handlers did. -/
theorem Run.received {before later : List Moment}
    (h : Run {} (before ++ .subscribes collection receiver :: later) t)
    (hlive : .drops receiver ∉ later) :
    ∃ queue, t.bus.queues.lookup receiver = some queue ∧
      taken receiver later ++ queue =
        (later.filterMap (Moment.sent?
          (Traffic.events (before ++ .subscribes collection receiver :: later)))).filter
          fun e => e.collection = collection := by
  obtain ⟨mid, hbefore, hlater⟩ := h.exists_of_append
  obtain _ | ⟨hsubscribes, hlater⟩ := hlater
  obtain _ | _ := hsubscribes
  have hjoined := (hbefore.fresh Bus.Fresh.empty).joined_subscribe collection
  obtain ⟨queue, hqueue, hall⟩ := hlater.joined hjoined hlive List.prefix_rfl
  rw [h.events] at hall
  exact ⟨queue, hqueue.queue, hall⟩

end

end Traffic

end Docstore
