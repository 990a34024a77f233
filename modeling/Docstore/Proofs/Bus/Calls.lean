import Docstore.Bus.Publication
import Mathlib.Data.List.Basic

/-!
# Which handlers are called

Publications on one bus may be interleaved in any way, with one another and with
registrations.  A publication keeps to the list that it began with: along every
history, what it has called and what still waits are that list (`Advances`), and it
has as many moments left as its list asks for.  The list is read off the history up to
the beginning (`Run.listed`), so it is not touched by what the handlers do.

`serves_of_run` puts this together.  That the publications of `Bus.publish` are among
these, with every handler doing what its `Handler` says, is `exists_run_ofPublication`.
-/

namespace Docstore

namespace Bus

/-! ### The lists of handlers -/

/-- The handlers that are called for the topic. -/
def listed (b : Bus) : Topic → List Handler
  | .collection c => (Dictionary.get? c b.handlers).getD []
  | .all => b.catchAll

theorem reached_eq (b : Bus) (collection : String) :
    b.reached collection = b.listed (.collection collection) ++ b.listed .all := rfl

theorem listed_register (b : Bus) (topic other : Topic) (h : Handler) :
    (b.register topic h).listed other = b.listed other ++ if topic = other then [h] else [] := by
  cases topic with
  | all =>
    cases other with
    | all => rfl
    | collection c => exact (List.append_nil _).symm
  | collection c =>
    cases other with
    | all => exact (List.append_nil _).symm
    | collection d =>
      simp only [listed, register, Dictionary.get?_put]
      by_cases hcd : c = d
      · simp [hcd]
      · simp [hcd]

theorem listed_send (b : Bus) (e : ChangeEvent) (topic : Topic) :
    (b.send e).listed topic = b.listed topic := by
  rw [send]
  cases topic <;> split <;> rfl

theorem listed_receive (b : Bus) (receiver : Nat) (topic : Topic) :
    (b.receive receiver).1.listed topic = b.listed topic := by
  rw [receive]
  cases topic <;> split <;> rfl

end Bus

namespace Traffic

variable {t u v : Traffic} {m : Moment} {ms ns : List Moment}

theorem Step.listed (h : Step t m u) (topic : Topic) :
    u.bus.listed topic = t.bus.listed topic ++ (m.registered? topic).toList := by
  cases h with
  | registers topic' h =>
    rw [Bus.listed_register, Moment.registered?]
    split <;> rfl
  | finishes => exact (Bus.listed_send ..).trans (List.append_nil _).symm
  | receives => exact (Bus.listed_receive ..).trans (List.append_nil _).symm
  | _ => exact (List.append_nil _).symm

/-- **The lists of the bus are what the history registered.** -/
theorem Run.listed (h : Run t ms u) (topic : Topic) :
    u.bus.listed topic = t.bus.listed topic ++ registered topic ms := by
  induction h with
  | nil => exact (List.append_nil _).symm
  | @cons t u v m ms hstep _ ih =>
    rw [ih, hstep.listed, List.append_assoc]
    cases h : m.registered? topic <;> simp [registered, h]

theorem Run.reached (h : Run {} ms u) (collection : String) :
    u.bus.reached collection = due collection ms := by
  rw [Bus.reached_eq, h.listed, h.listed]
  rfl

/-! ### The numbers of publications -/

theorem Step.length_publications (h : Step t m u) :
    u.publications.length = t.publications.length + if m.isBeginning then 1 else 0 := by
  cases h with
  | begins => exact List.length_append
  | calls | ends | finishes => exact List.length_set
  | _ => rfl

theorem Run.length_publications (h : Run t ms u) :
    u.publications.length = t.publications.length + begun ms := by
  induction h with
  | nil => rfl
  | @cons t u v m ms hstep _ ih =>
    rw [ih, hstep.length_publications, begun, begun, List.countP_cons, Nat.add_assoc,
      Nat.add_comm (ite _ _ _)]

end Traffic

/-! ### How a publication goes on -/

namespace Publication

/-- The moments that a publication has left. -/
def left (q : Publication) : Nat :=
  2 * q.waiting.length + q.running.toNat + if q.result = none then 1 else 0

/-- Nothing is left to do, and the number is that of the calls that crashed. -/
structure IsDone (q : Publication) (n : Nat) : Prop where
  running : q.running = false
  waiting : q.waiting = []
  crashed : q.crashed = n

/-- A publication that has returned is done. -/
def IsSound (q : Publication) : Prop := ∀ n, q.result = some n → q.IsDone n

end Publication

namespace Traffic

variable {t u v : Traffic} {m : Moment} {ms ns : List Moment} {p : Nat}
  {q q' q'' : Publication}

/-- How a publication goes on along a history. -/
structure Advances (p : Nat) (history : List Moment) (q q' : Publication) : Prop where
  waiting : q.waiting = called p history ++ q'.waiting
  crashed : q'.crashed = q.crashed + crashes p history
  result : ∀ n, q'.result = some n ↔ q.result = some n ∨ .finishes p n ∈ history
  left : q.left = moments p history + q'.left
  sound : q.IsSound → q'.IsSound

namespace Advances

theorem nil (p : Nat) (q : Publication) : Advances p [] q q where
  waiting := rfl
  crashed := rfl
  result n := by simp
  left := (Nat.zero_add _).symm
  sound := id

theorem append (h : Advances p ms q q') (h' : Advances p ns q' q'') :
    Advances p (ms ++ ns) q q'' where
  waiting := by
    rw [h.waiting, h'.waiting, called, called, called, List.filterMap_append, List.append_assoc]
  crashed := by
    rw [h'.crashed, h.crashed, crashes, crashes, crashes, List.countP_append, Nat.add_assoc]
  result n := by rw [h'.result, h.result, List.mem_append, or_assoc]
  left := by
    rw [h.left, h'.left, moments, moments, moments, List.countP_append, Nat.add_assoc]
  sound := h'.sound ∘ h.sound

/-- What others do does not concern a publication. -/
theorem of_other (hm : m.isOf p = false) : Advances p [m] q q := by
  cases m with
  | calls r h =>
    have hr : r ≠ p := ne_of_beq_false hm
    exact ⟨by simp [called, Moment.called?, hr], rfl, by simp, by simp [moments, hm], id⟩
  | ends r crashed =>
    have hr : r ≠ p := ne_of_beq_false hm
    exact ⟨rfl, by simp [crashes, Moment.isCrash, hr], by simp, by simp [moments, hm], id⟩
  | finishes r n =>
    have hr : r ≠ p := ne_of_beq_false hm
    exact ⟨rfl, rfl, by simp [Ne.symm hr], by simp [moments, hm], id⟩
  | _ => exact ⟨rfl, rfl, by simp, (Nat.zero_add _).symm, id⟩

theorem calls {h : Handler} {rest : List Handler} (hidle : q.running = false)
    (hnext : q.waiting = h :: rest) :
    Advances p [.calls p h] q { q with waiting := rest, running := true } where
  waiting := by simp [hnext, called, Moment.called?]
  crashed := rfl
  result n := by simp
  left := by
    simp only [Publication.left, hnext, hidle, List.length_cons, moments, List.countP_singleton,
      Moment.isOf, beq_self_eq_true, if_true, Bool.toNat_true, Bool.toNat_false]
    omega
  sound hq n hn := absurd (hnext.symm.trans (hq n hn).waiting) (List.cons_ne_nil _ _)

theorem ends (hrunning : q.running = true) (crashed : Bool) :
    Advances p [.ends p crashed] q
      { q with running := false, crashed := q.crashed + crashed.toNat } where
  waiting := rfl
  crashed := by cases crashed <;> simp [crashes, Moment.isCrash]
  result n := by simp
  left := by
    simp only [Publication.left, hrunning, moments, List.countP_singleton, Moment.isOf,
      beq_self_eq_true, if_true, Bool.toNat_true, Bool.toNat_false]
    omega
  sound hq n hn := absurd (hrunning.symm.trans (hq n hn).running) (by decide)

theorem finishes (hidle : q.running = false) (hnone : q.waiting = []) (hopen : q.result = none) :
    Advances p [.finishes p q.crashed] q { q with result := some q.crashed } where
  waiting := rfl
  crashed := rfl
  result n := by simp [hopen, eq_comm]
  left := by simp [Publication.left, hidle, hnone, hopen, moments, Moment.isOf]
  sound _ n hn := ⟨hidle, hnone, Option.some.inj hn⟩

end Advances

theorem exists_put {r : Nat} {other : Publication} (hr : t.publications[r]? = some q')
    (hq : t.publications[p]? = some q) (hm : m.isOf p = (r == p))
    (hown : r = p → Advances p [m] q' other) :
    ∃ next, (t.put r other).publications[p]? = some next ∧ Advances p [m] q next := by
  by_cases h : r = p
  · subst h
    obtain rfl := Option.some.inj (hr.symm.trans hq)
    obtain ⟨hlt, -⟩ := List.getElem?_eq_some_iff.mp hq
    exact ⟨other, List.getElem?_set_self hlt, hown rfl⟩
  · have hother : m.isOf p = false := by simpa [hm] using h
    exact ⟨q, (List.getElem?_set_ne h).trans hq, .of_other hother⟩

/-- **One step**: a publication that has begun stays under its number and goes on. -/
theorem Step.advances (h : Step t m u) (hq : t.publications[p]? = some q) :
    ∃ q', u.publications[p]? = some q' ∧ Advances p [m] q q' := by
  cases h with
  | begins e =>
    obtain ⟨hlt, -⟩ := List.getElem?_eq_some_iff.mp hq
    exact ⟨q, (List.getElem?_append_left hlt).trans hq, .of_other rfl⟩
  | calls hr hidle hnext =>
    refine exists_put hr hq rfl ?_
    rintro rfl
    exact .calls hidle hnext
  | ends hr hrunning crashed =>
    refine exists_put hr hq rfl ?_
    rintro rfl
    exact .ends hrunning crashed
  | finishes hr hidle hnone hopen =>
    refine exists_put hr hq rfl ?_
    rintro rfl
    exact .finishes hidle hnone hopen
  | _ => exact ⟨q, hq, .of_other rfl⟩

/-- **A history**: the same, for all its moments. -/
theorem Run.advances (h : Run t ms u) (hq : t.publications[p]? = some q) :
    ∃ q', u.publications[p]? = some q' ∧ Advances p ms q q' := by
  induction h generalizing q with
  | nil => exact ⟨q, hq, .nil p q⟩
  | cons hstep _ ih =>
    obtain ⟨mid, hmid, hone⟩ := hstep.advances hq
    obtain ⟨last, hlast, hmore⟩ := ih hmid
    exact ⟨last, hlast, hone.append hmore⟩

/-- A publication that is not finished can go on. -/
theorem exists_step (hq : t.publications[p]? = some q) (hopen : q.result = none) :
    ∃ m u, Step t m u ∧ m.isOf p = true := by
  cases hrunning : q.running with
  | true => exact ⟨_, _, .ends hq hrunning false, beq_self_eq_true p⟩
  | false =>
    cases hwaiting : q.waiting with
    | nil => exact ⟨_, _, .finishes hq hrunning hwaiting hopen, beq_self_eq_true p⟩
    | cons h rest => exact ⟨_, _, .calls hq hrunning hwaiting, beq_self_eq_true p⟩

/-! ### Histories -/

theorem Run.append (h : Run t ms u) (h' : Run u ns v) : Run t (ms ++ ns) v := by
  induction h with
  | nil => exact h'
  | cons hstep _ ih => exact .cons hstep (ih h')

theorem Run.exists_of_append (h : Run t (ms ++ ns) v) : ∃ u, Run t ms u ∧ Run u ns v := by
  induction ms generalizing t with
  | nil => exact ⟨t, .nil t, h⟩
  | cons m ms ih =>
    obtain _ | ⟨hstep, hrest⟩ := h
    obtain ⟨u, hms, hns⟩ := ih hrest
    exact ⟨u, .cons hstep hms, hns⟩

theorem Run.single (h : Step t m u) : Run t [m] u := .cons h (.nil u)

/-- What a publication does with the handlers of its list along a history. -/
structure Serves (p : Nat) (hs : List Handler) (history : List Moment) : Prop where
  inOrder : called p history <+: hs
  all : ∀ n, .finishes p n ∈ history → called p history = hs
  counts : ∀ n, .finishes p n ∈ history → n = crashes p history
  /-- Each handler is called and ends, and then the publication is finished. -/
  bounded : moments p history ≤ 2 * hs.length + 1
  finished_iff : (∃ n, .finishes p n ∈ history) ↔ moments p history = 2 * hs.length + 1

theorem Advances.serves (h : Advances p ms q q') (hidle : q.running = false)
    (hopen : q.result = none) (hzero : q.crashed = 0) : Serves p q.waiting ms := by
  have hsound : q'.IsSound := h.sound fun n hn => absurd (hopen.symm.trans hn) (by simp)
  have hresult : ∀ n, q'.result = some n ↔ .finishes p n ∈ ms := fun n => by
    rw [h.result, hopen]
    simp
  have hleft : moments p ms + q'.left = 2 * q.waiting.length + 1 := by
    rw [← h.left, Publication.left, hidle, if_pos hopen, Bool.toNat_false]
  refine ⟨⟨q'.waiting, h.waiting.symm⟩, fun n hn => ?_, fun n hn => ?_, by omega, ?_⟩
  · rw [h.waiting, (hsound n ((hresult n).mpr hn)).waiting, List.append_nil]
  · rw [← (hsound n ((hresult n).mpr hn)).crashed, h.crashed, hzero, Nat.zero_add]
  · have hdone : (∃ n, .finishes p n ∈ ms) ↔ q'.left = 0 := by
      simp only [← hresult]
      constructor
      · rintro ⟨n, hn⟩
        simp [Publication.left, (hsound n hn).waiting, (hsound n hn).running, hn]
      · intro hzero
        refine Option.ne_none_iff_exists'.mp fun hnone => ?_
        rw [Publication.left, if_pos hnone] at hzero
        omega
    rw [hdone]
    omega

/-- **The list of a publication is settled when it begins**, and it goes on from there. -/
theorem Run.exists_publication {before later : List Moment} {e : ChangeEvent}
    (h : Run {} (before ++ .begins e :: later) t) :
    ∃ q, t.publications[begun before]? = some q ∧
      Advances (begun before) later { event := e, waiting := due e.collection before } q := by
  obtain ⟨u, hbefore, hlater⟩ := h.exists_of_append
  obtain _ | ⟨hbegins, hlater⟩ := hlater
  obtain _ | _ := hbegins
  have hnumber : u.publications.length = begun before :=
    hbefore.length_publications.trans (Nat.zero_add _)
  obtain ⟨q, hq, hadvances⟩ := hlater.advances List.getElem?_concat_length
  rw [hnumber] at hq hadvances
  rw [hbefore.reached] at hadvances
  exact ⟨q, hq, hadvances⟩

theorem Run.lt_of_isOf (h : Run t ms u) (hmem : m ∈ ms) (hm : m.isOf p = true) :
    p < u.publications.length := by
  induction h with
  | nil => exact absurd hmem List.not_mem_nil
  | @cons t u v first ms hstep hrest ih =>
    rcases List.mem_cons.mp hmem with rfl | hmem
    · have hlt : p < t.publications.length := by
        cases hstep with
        | calls hq => exact beq_iff_eq.mp hm ▸ (List.getElem?_eq_some_iff.mp hq).1
        | ends hq => exact beq_iff_eq.mp hm ▸ (List.getElem?_eq_some_iff.mp hq).1
        | finishes hq => exact beq_iff_eq.mp hm ▸ (List.getElem?_eq_some_iff.mp hq).1
        | _ => exact absurd hm Bool.false_ne_true
      rw [hrest.length_publications, hstep.length_publications]
      omega
    · exact ih hmem

theorem isOf_of_called? {h : Handler} (hm : m.called? p = some h) : m.isOf p = true := by
  cases m with
  | calls r h =>
    rw [Moment.called?] at hm
    split at hm
    · next hr => exact beq_iff_eq.mpr hr
    · exact absurd hm (by simp)
  | _ => exact absurd hm (by simp [Moment.called?])

theorem isOf_of_isCrash (hm : m.isCrash p = true) : m.isOf p = true := by
  cases m with
  | ends r crashed => exact (Bool.and_eq_true _ _ ▸ hm).1
  | _ => exact absurd hm Bool.false_ne_true

/-- What was before a publication has nothing to do with it. -/
theorem Serves.of_later {hs : List Handler} {before later : List Moment}
    (h : Serves p hs later) (hbefore : ∀ m ∈ before, m.isOf p = false) :
    Serves p hs (before ++ later) := by
  have hnone : ∀ {m}, m ∈ before → ¬m.isOf p = true := fun hm => by simp [hbefore _ hm]
  have hcalled : called p (before ++ later) = called p later := by
    rw [called, called, List.filterMap_append, List.filterMap_eq_nil_iff.mpr, List.nil_append]
    exact fun m hm => Option.eq_none_iff_forall_ne_some.mpr fun h hcalls =>
      hnone hm (isOf_of_called? hcalls)
  have hcrashes : crashes p (before ++ later) = crashes p later := by
    rw [crashes, crashes, List.countP_append, List.countP_eq_zero.mpr, Nat.zero_add]
    exact fun m hm hcrash => hnone hm (isOf_of_isCrash hcrash)
  have hmoments : moments p (before ++ later) = moments p later := by
    rw [moments, moments, List.countP_append, List.countP_eq_zero.mpr, Nat.zero_add]
    exact fun m hm => hnone hm
  have hfinishes : ∀ {n}, .finishes p n ∈ before ++ later ↔ .finishes p n ∈ later := by
    intro n
    rw [List.mem_append]
    exact or_iff_right fun hm => hnone hm (beq_self_eq_true p)
  refine ⟨?_, fun n hn => ?_, fun n hn => ?_, ?_, ?_⟩
  · rw [hcalled]; exact h.inOrder
  · rw [hcalled]; exact h.all n (hfinishes.mp hn)
  · rw [hcrashes]; exact h.counts n (hfinishes.mp hn)
  · rw [hmoments]; exact h.bounded
  · rw [hmoments]; exact (exists_congr fun n => hfinishes).trans h.finished_iff

/-! ### Publications that are not disturbed -/

theorem exists_run_registers (t : Traffic) (hs : List (Topic × Handler)) :
    ∃ u, Run t (hs.map fun r => .registers r.1 r.2) u ∧ u.bus = t.bus.registerAll hs ∧
      u.publications = t.publications := by
  induction hs generalizing t with
  | nil => exact ⟨t, .nil t, rfl, rfl⟩
  | cons h hs ih =>
    obtain ⟨u, hrun, hbus, hpublications⟩ := ih { t with bus := t.bus.register h.1 h.2 }
    exact ⟨u, .cons (.registers t h.1 h.2) hrun, hbus, hpublications⟩

theorem getElem?_put (hq : t.publications[p]? = some q) (q' : Publication) :
    (t.put p q').publications[p]? = some q' :=
  List.getElem?_set_self (List.getElem?_eq_some_iff.mp hq).1

/-- A call: the handler registers what it registers, and crashes or not. -/
theorem exists_run_ofCall (hq : t.publications[p]? = some q) (hidle : q.running = false)
    {h : Handler} {rest : List Handler} (hnext : q.waiting = h :: rest) :
    ∃ u, Run t (Moment.ofCall p h) u ∧ u.bus = t.bus.call h ∧
      u.publications[p]? = some
        { q with waiting := rest, running := false, crashed := q.crashed + h.crashes.toNat } := by
  have hcalled := getElem?_put hq { q with waiting := rest, running := true }
  obtain ⟨u, hregisters, hbus, hpublications⟩ := exists_run_registers
    (t.put p { q with waiting := rest, running := true }) h.registers
  rw [← hpublications] at hcalled
  exact ⟨_, .cons (.calls hq hidle hnext)
    (hregisters.append (.single (.ends hcalled rfl h.crashes))), hbus, getElem?_put hcalled _⟩

theorem exists_run_calls (hs : List Handler) {rest : List Handler}
    (hq : t.publications[p]? = some q) (hidle : q.running = false)
    (hnext : q.waiting = hs ++ rest) :
    ∃ u, Run t (hs.flatMap (Moment.ofCall p)) u ∧ u.bus = hs.foldl Bus.call t.bus ∧
      u.publications[p]? = some
        { q with
          waiting := rest, running := false
          crashed := q.crashed + (hs.filter Handler.crashes).length } := by
  induction hs generalizing t q with
  | nil =>
    refine ⟨t, .nil t, rfl, hq.trans ?_⟩
    rw [← hidle, ← show q.waiting = rest from hnext]
    rfl
  | cons h hs ih =>
    obtain ⟨u, hcall, hbus, hu⟩ := exists_run_ofCall hq hidle hnext
    obtain ⟨v, hcalls, hbus', hv⟩ := ih hu rfl rfl
    refine ⟨v, hcall.append hcalls, by rw [hbus', hbus, List.foldl_cons], ?_⟩
    rw [hv]
    cases hcrashes : h.crashes <;> simp [hcrashes, Nat.add_comm, Nat.add_left_comm]

/-- A publication that has begun calls its handlers, and then it can be finished. -/
theorem exists_run_called (t : Traffic) (e : ChangeEvent) :
    let hs := t.bus.reached e.collection
    let begun : Traffic :=
      { t with publications := t.publications ++ [{ event := e, waiting := hs }] }
    ∃ u v, Run begun (hs.flatMap (Moment.ofCall t.publications.length)) u ∧
      Step u (.finishes t.publications.length (t.bus.publish e).crashed) v ∧
      v.bus = (t.bus.publish e).bus := by
  intro hs begun
  have hq : begun.publications[t.publications.length]? = some { event := e, waiting := hs } :=
    List.getElem?_concat_length
  obtain ⟨u, hcalls, hbus, hu⟩ := exists_run_calls hs hq rfl (List.append_nil _).symm
  have hfinishes := Step.finishes hu rfl rfl rfl
  rw [Nat.zero_add] at hfinishes
  refine ⟨u, _, hcalls, hfinishes, ?_⟩
  show u.bus.send e = _
  rw [hbus]
  rfl

/-- **`Bus.publish` is a publication that is not disturbed.** -/
theorem exists_run_ofPublication (t : Traffic) (e : ChangeEvent) :
    ∃ u, Run t (Moment.ofPublication t.publications.length e (t.bus.reached e.collection)) u ∧
      u.bus = (t.bus.publish e).bus := by
  obtain ⟨u, v, hcalls, hfinishes, hbus⟩ := exists_run_called t e
  exact ⟨v, .cons (.begins t e) (hcalls.append (.single hfinishes)), hbus⟩

/-- **Which handlers are called.**  Whatever handlers do while they run and whoever else uses
the bus or its clones: each publication calls the handlers that were registered for its
collection before it began, in order, and then those for all events, each once; it can
always go on until all are called, and returns how many of these calls crashed.  So it
is for `Bus.publish` after every history. -/
theorem serves_of_run :
    (∀ (before later : List Moment) (e : ChangeEvent) (t : Traffic),
      Run {} (before ++ .begins e :: later) t →
        Serves (begun before) (due e.collection before) later ∧
        ((∀ n, .finishes (begun before) n ∉ later) →
          ∃ m u, Step t m u ∧ m.isOf (begun before) = true)) ∧
    ∀ (history : List Moment) (t : Traffic) (e : ChangeEvent), Run {} history t →
      (t.bus.publish e).calls = (due e.collection history).map Handler.name ∧
      (t.bus.publish e).crashed = ((due e.collection history).filter Handler.crashes).length ∧
      ∃ u, Run {} (history ++
          Moment.ofPublication (begun history) e (due e.collection history)) u ∧
        u.bus = (t.bus.publish e).bus := by
  constructor
  · intro before later e t h
    obtain ⟨q, hq, hadvances⟩ := h.exists_publication
    refine ⟨hadvances.serves rfl rfl rfl, fun hnot => ?_⟩
    refine exists_step hq (Option.eq_none_iff_forall_ne_some.mpr fun n hn => ?_)
    rcases (hadvances.result n).mp hn with hn | hn
    · exact absurd hn (by simp)
    · exact hnot n hn
  · intro history t e h
    have hdue := h.reached e.collection
    have hnumber : t.publications.length = begun history :=
      h.length_publications.trans (Nat.zero_add _)
    obtain ⟨u, hrun, hbus⟩ := exists_run_ofPublication t e
    rw [hnumber, hdue] at hrun
    refine ⟨?_, ?_, u, h.append hrun, hbus⟩
    · rw [← hdue]
      rfl
    · rw [← hdue]
      rfl

/-- A handler registers another one, publishes an event and crashes, and so does the handler that
its event is due to.  The first publication still calls the other handler that was there, not the
new one, which hears of the next event. -/
theorem serves_of_run_nested :
    let event (collection : String) : ChangeEvent :=
      { collection, document := .null, kind := .delete, tick := none }
    let first : Handler := .mk "first" [] true
    let any : Handler := .mk "any" [] false
    let late : Handler := .mk "late" [] false
    let before : List Moment := [.registers .all any, .registers (.collection "users") first]
    let later : List Moment := [.calls 0 first, .registers (.collection "users") late,
      .begins (event "orders"), .calls 1 any, .ends 1 true, .finishes 1 1, .ends 0 true,
      .calls 0 any, .ends 0 false, .finishes 0 1]
    let next := due "users" (before ++ .begins (event "users") :: later)
    ∃ t, Run {} (before ++ .begins (event "users") :: later) t ∧ Serves 0 [first, any] later ∧
      called 0 later = [first, any] ∧ crashes 0 later = 1 ∧ next = [first, late, any] ∧
      (t.bus.publish (event "users")).calls = ["first", "late", "any"] ∧
      (t.bus.publish (event "users")).crashed = 1 ∧
      ∃ u, Run {} (before ++ .begins (event "users") :: later ++
        Moment.ofPublication 2 (event "users") next) u := by
  intro event first any late before later next
  obtain ⟨t, ht⟩ : ∃ t, Run {} (before ++ .begins (event "users") :: later) t :=
    ⟨_, .cons (.registers ..) <| .cons (.registers ..) <| .cons (.begins ..) <|
      .cons (.calls rfl rfl rfl) <| .cons (.registers ..) <| .cons (.begins ..) <|
      .cons (.calls rfl rfl rfl) <| .cons (.ends rfl rfl true) <|
      .cons (.finishes (q := ⟨event "orders", [], false, 1, none⟩) rfl rfl rfl rfl) <|
      .cons (.ends rfl rfl true) <| .cons (.calls rfl rfl rfl) <| .cons (.ends rfl rfl false) <|
      .single (.finishes (q := ⟨event "users", [], false, 1, none⟩) rfl rfl rfl rfl)⟩
  have hserves : Serves 0 [first, any] later :=
    (serves_of_run.1 before later (event "users") t ht).1
  obtain ⟨hcalls, hcrashed, u, hu, -⟩ := serves_of_run.2 _ t (event "users") ht
  have hall : called 0 later = [first, any] := hserves.all 1 (by simp [later])
  have hcount : 1 = crashes 0 later := hserves.counts 1 (by simp [later])
  exact ⟨t, ht, hserves, hall, hcount.symm, rfl, hcalls, hcrashed, u, hu⟩

end Traffic

end Docstore
