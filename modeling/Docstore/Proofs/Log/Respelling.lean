import Docstore.Proofs.Failure
import Docstore.Proofs.Json.Grammar
import Docstore.Proofs.Log.Atomicity
import Docstore.Proofs.Term.Count

/-!
# Numbers and strings in the log

Positions and ids of transactions come as integers or as the strings of their digits, and
both mean the same.

* `Respelt`: two records that differ only in how they spell positions and ids.  They are
  read as one entry (`ofDraft?_of_respelt`), whatever else they hold, and fail alike.
* `RespeltLine`: two lines with such records.  Quotes around the digits of a position or an
  id respell a line (`exists_respeltLine`).
* `transaction_eq_toString_iff`: an entry belongs to the transaction of an integer when its
  record names this integer in one of the two ways.

So a log may mix the two ways in one transaction, and the transaction still takes effect as
one (`readBatch_of_respelt`).
-/

namespace Docstore

/-! ### Integers and their strings -/

namespace Draft

/-- The draft spells an integer, as a number or as a string of its digits. -/
inductive SpellsId (i : Int) : Draft → Prop where
  | number (fits : FitsInteger i) : SpellsId i (.number (some (.int i fits)))
  | string : SpellsId i (.string (some (toString i)))

/-- The drafts are the same, or two spellings of one integer that fits. -/
inductive SameId : Draft → Draft → Prop where
  | refl (d : Draft) : SameId d d
  | respelt {i : Int} (fits : FitsInteger i) {d d' : Draft} (h : SpellsId i d)
      (h' : SpellsId i d') : SameId d d'

end Draft

namespace LogEntry

open Draft

/-- The values stand for the same position and for the same transaction. -/
def MeanTheSame (v w : Json) : Prop := tickOf v = tickOf w ∧ transactionOf v = transactionOf w

theorem meanTheSame_toString {i : Int} (fits : FitsInteger i) :
    MeanTheSame (.number (.int i fits)) (.string (toString i)) :=
  ⟨(unsigned64?_toString fits).symm, rfl⟩

theorem exists_value?_of_spellsId {i : Int} (fits : FitsInteger i) {d : Draft}
    (h : SpellsId i d) (depth : Nat) :
    ∃ v, d.value? depth = some v ∧ MeanTheSame v (.number (.int i fits)) := by
  cases h with
  | number fits' => exact ⟨_, rfl, rfl, rfl⟩
  | string =>
    obtain ⟨htick, htransaction⟩ := meanTheSame_toString fits
    exact ⟨_, rfl, htick.symm, htransaction.symm⟩

/-- **Both spellings stand for the same position and transaction.** -/
theorem rel_value?_of_sameId {d d' : Draft} (h : SameId d d') (depth : Nat) :
    Option.Rel MeanTheSame (d.value? depth) (d'.value? depth) := by
  cases h with
  | refl =>
    cases d.value? depth with
    | none => exact .none
    | some v => exact .some ⟨rfl, rfl⟩
  | respelt fits h h' =>
    obtain ⟨v, hv, hvtick, hvtransaction⟩ := exists_value?_of_spellsId fits h depth
    obtain ⟨w, hw, hwtick, hwtransaction⟩ := exists_value?_of_spellsId fits h' depth
    rw [hv, hw]
    exact .some ⟨hvtick.trans hwtick.symm, hvtransaction.trans hwtransaction.symm⟩

/-! ### Records -/

def SameMember (m m' : Option String × Draft) : Prop :=
  m.1 = m'.1 ∧ (m.2 = m'.2 ∨ (m.1 = some "tick" ∨ m.1 = some "tid") ∧ SameId m.2 m'.2)

/-- The records differ only in how they spell positions and ids.  A record is an object or the
list of its fields, of which the position is the first and the id the third. -/
inductive Respelt : Draft → Draft → Prop where
  | object {members members' : List (Option String × Draft)}
      (h : List.Forall₂ SameMember members members') :
      Respelt (.object members) (.object members')
  | short {tick tick' : Draft} (htick : SameId tick tick') (code : Draft) :
      Respelt (.array [tick, code]) (.array [tick', code])
  | array {tick tick' tid tid' : Draft} (htick : SameId tick tick') (code : Draft)
      (htid : SameId tid tid') (rest : List Draft) :
      Respelt (.array (tick :: code :: tid :: rest)) (.array (tick' :: code :: tid' :: rest))

section Members

variable {members members' : List (Option String × Draft)}

theorem SameMember.sameId {m m' : Option String × Draft} (h : SameMember m m') :
    SameId m.2 m'.2 := by
  obtain ⟨-, h | ⟨-, h⟩⟩ := h
  · rw [h]
    exact .refl _
  · exact h

theorem map_fst_of_sameMember (h : List.Forall₂ SameMember members members') :
    members.map Prod.fst = members'.map Prod.fst := by
  induction h with
  | nil => rfl
  | cons hm _ ih => rw [List.map_cons, List.map_cons, hm.1, ih]

theorem occurrences_of_sameMember (name : String)
    (h : List.Forall₂ SameMember members members') :
    List.Forall₂ SameId (occurrences name members) (occurrences name members') := by
  induction h with
  | nil => exact .nil
  | @cons m m' ms ms' hm _ ih =>
    rw [occurrences, occurrences, List.filterMap_cons, List.filterMap_cons, ← hm.1]
    by_cases hname : m.1 = some name
    · rw [if_pos hname, if_pos hname]
      exact .cons hm.sameId ih
    · rw [if_neg hname, if_neg hname]
      exact ih

theorem occurrences_eq_of_sameMember {name : String} (htick : name ≠ "tick") (htid : name ≠ "tid")
    (h : List.Forall₂ SameMember members members') :
    occurrences name members = occurrences name members' := by
  induction h with
  | nil => rfl
  | @cons m m' ms ms' hm _ ih =>
    obtain ⟨hkey, hdraft⟩ := hm
    rw [occurrences, occurrences, List.filterMap_cons, List.filterMap_cons, ← hkey]
    by_cases hname : m.1 = some name
    · have hsame : m.2 = m'.2 := by
        refine hdraft.resolve_right ?_
        rintro ⟨hids | hids, -⟩
        · exact htick (Option.some.inj (hname.symm.trans hids))
        · exact htid (Option.some.inj (hname.symm.trans hids))
      rw [if_pos hname, if_pos hname, hsame]
      exact congrArg _ ih
    · rw [if_neg hname, if_neg hname]
      exact ih

theorem rel_head?_of_forall₂ {ds ds' : List Draft} (h : List.Forall₂ SameId ds ds') :
    Option.Rel SameId ds.head? ds'.head? := by
  cases h with
  | nil => exact .none
  | cons hd _ => exact .some hd

end Members

inductive SameFields : List (Option Draft) → List (Option Draft) → Prop where
  | mk {tick tick' tid tid' : Option Draft} (htick : Option.Rel SameId tick tick')
      (code : Option Draft) (htid : Option.Rel SameId tid tid') (data : Option Draft) :
      SameFields [tick, code, tid, data] [tick', code, tid', data]

/-- **Respelt records have the same fields**, or both are none. -/
theorem rel_record?_of_respelt {d d' : Draft} (h : Respelt d d') :
    Option.Rel SameFields (d.record? fieldNames 2) (d'.record? fieldNames 2) := by
  cases h with
  | @object members members' h =>
    have hkeys : members.all (fun m => m.1.isSome) = members'.all (fun m => m.1.isSome) := by
      have hall := congrArg (List.all · Option.isSome) (map_fst_of_sameMember h)
      simpa [List.all_map, Function.comp_def] using hall
    have honce : fieldNames.all (fun name => (occurrences name members).length ≤ 1) =
        fieldNames.all (fun name => (occurrences name members').length ≤ 1) := by
      simp only [(occurrences_of_sameMember _ h).length_eq]
    rw [record?, record?, hkeys, honce]
    split
    · -- the code and the data are the same, the position and the id are respelt
      simp only [fieldNames, List.map_cons, List.map_nil,
        occurrences_eq_of_sameMember (show "type" ≠ "tick" by decide) (by decide) h,
        occurrences_eq_of_sameMember (show "data" ≠ "tick" by decide) (by decide) h]
      exact .some (.mk (rel_head?_of_forall₂ (occurrences_of_sameMember "tick" h)) _
        (rel_head?_of_forall₂ (occurrences_of_sameMember "tid" h)) _)
    · exact .none
  | short htick code => exact .some (.mk (.some htick) _ .none _)
  | array htick code htid rest =>
    cases rest with
    | nil => exact .some (.mk (.some htick) _ (.some htid) _)
    | cons data rest =>
      cases rest with
      | nil => exact .some (.mk (.some htick) _ (.some htid) _)
      | cons _ _ =>
        -- a list with too many fields is no record
        rw [record?, record?, if_neg (by simp [fieldNames]), if_neg (by simp [fieldNames])]
        exact .none

theorem rel_value?_getD {t t' : Option Draft} (h : Option.Rel SameId t t') (depth : Nat) :
    Option.Rel MeanTheSame ((t.getD .null).value? depth) ((t'.getD .null).value? depth) := by
  cases h with
  | none => exact rel_value?_of_sameId (.refl .null) depth
  | some h => exact rel_value?_of_sameId h depth

theorem bind_eq_of_rel {α β : Type} {r : α → α → Prop} {x y : Option α} (h : Option.Rel r x y)
    {f g : α → Option β} (hfg : ∀ a b, r a b → f a = g b) : x.bind f = y.bind g := by
  cases h with
  | none => rfl
  | some hr => exact hfg _ _ hr

/-- **Respelt records are read as one entry**, or neither is one. -/
theorem ofDraft?_of_respelt {d d' : Draft} (h : Respelt d d') (depth : Nat) :
    ofDraft? depth d = ofDraft? depth d' := by
  have hrecord := rel_record?_of_respelt h
  rw [ofDraft?, ofDraft?]
  generalize d.record? fieldNames 2 = fields at hrecord ⊢
  generalize d'.record? fieldNames 2 = fields' at hrecord ⊢
  cases hrecord with
  | none => rfl
  | some hfields =>
    obtain @⟨tick, tick', tid, tid', htick, code, htid, data⟩ := hfields
    refine bind_eq_of_rel (rel_value?_getD htick depth) fun v v' hv => ?_
    refine congrArg (code.bind codeOf?).bind (funext fun code => ?_)
    refine bind_eq_of_rel (rel_value?_getD htid depth) fun w w' hw => ?_
    rw [hv.1, hw.2]

/-! ### Lines -/

/-- The lines are the same, or hold records that differ only in how they spell positions and
ids. -/
def RespeltLine (line line' : String) : Prop :=
  line = line' ∨
    ∃ d d', Draft.parse? line = some d ∧ Draft.parse? line' = some d' ∧ Respelt d d'

theorem ofLine_of_respeltLine {line line' : String} (h : RespeltLine line line') :
    ofLine line = ofLine line' := by
  obtain rfl | ⟨d, d', hd, hd', h⟩ := h
  · rfl
  · rw [ofLine, ofLine, hd, hd', Option.bind_some, Option.bind_some, ofDraft?_of_respelt h]

/-! ### Texts of records -/

/-- Texts of respelt records respell a line. -/
theorem respeltLine_of_isText {v v' : Json} {line line' : String} (h : Json.IsText v line.toList)
    (h' : Json.IsText v' line'.toList) (hv : Respelt v.draft v'.draft) :
    RespeltLine line line' :=
  Or.inr ⟨_, _, Json.draft_of_isText h, Json.draft_of_isText h', hv⟩

section Quotes

variable {front back : List (String × Json)} {key : String} (hkey : key = "tick" ∨ key = "tid")
  {i : Int} (fits : FitsInteger i)

include hkey

theorem respelt_object :
    Respelt (Json.draft (.object (front ++ (key, .number (.int i fits)) :: back)))
      (Json.draft (.object (front ++ (key, .string (toString i)) :: back))) := by
  refine .object ?_
  induction front with
  | nil =>
    have hids : some key = some "tick" ∨ some key = some "tid" :=
      hkey.imp (congrArg some) (congrArg some)
    exact .cons ⟨rfl, Or.inr ⟨hids, .respelt fits (.number fits) .string⟩⟩
      (List.forall₂_same.mpr fun m _ => ⟨rfl, Or.inl rfl⟩)
  | cons m front ih => exact .cons ⟨rfl, Or.inl rfl⟩ ih

/-- **Quotes around the digits of a position or an id respell a line.** -/
theorem exists_respeltLine {line : String}
    (h : Json.IsText (.object (front ++ (key, .number (.int i fits)) :: back)) line.toList) :
    ∃ before after, line = before ++ toString i ++ after ∧
      RespeltLine line (before ++ ("\"" ++ toString i ++ "\"") ++ after) := by
  generalize hmembers : front ++ (key, .number (.int i fits)) :: back = members at h
  generalize hline : line.toList = cs at h
  cases h with
  | emptyObject => exact absurd hmembers (by simp)
  | @object _ cs hmembersText =>
    subst hmembers
    obtain ⟨before, text, after, rfl, htext, hexchange⟩ := hmembersText.exists_exchange
    obtain rfl := htext.eq_text
    have hquotes : Json.quoteChars (toString i).toList = '"' :: ((toString i).toList ++ ['"']) :=
      Json.quoteChars_text (.int i fits)
    have hsplit : line = String.ofList ('\x7b' :: before) ++ toString i ++ String.ofList after := by
      rw [← String.toList_inj, hline]
      simp [Number.text]
    have horiginal :
        Json.IsText (.object (front ++ (key, .number (.int i fits)) :: back)) line.toList := by
      rw [hline]
      exact .object hmembersText
    have hquoted : Json.IsText (.object (front ++ (key, .string (toString i)) :: back))
        (String.ofList ('\x7b' :: before) ++ ("\"" ++ toString i ++ "\"")
          ++ String.ofList after).toList := by
      have htext := Json.IsText.object (hexchange _ _ (.string (toString i)))
      rw [hquotes] at htext
      simpa using htext
    exact ⟨_, _, hsplit, respeltLine_of_isText horiginal hquoted (respelt_object hkey fits)⟩

end Quotes

/-! ### The transaction of a record -/

/-- What a record has as the id of its transaction, if anything. -/
def transactionDraft? (d : Draft) : Option Draft :=
  (d.record? fieldNames 2).bind fun fields => (fields[2]?).join

/-- The record names an integer as the id of its transaction, in one of the two ways. -/
def NamesTransaction (d : Draft) (i : Int) : Prop := ∃ t ∈ transactionDraft? d, SpellsId i t

theorem exists_value?_transactionDraft {depth : Nat} {d : Draft} {e : LogEntry}
    (h : ofDraft? depth d = some e) :
    ∃ v, ((transactionDraft? d).getD .null).value? depth = some v ∧
      e.transaction = transactionOf v := by
  rw [ofDraft?] at h
  split at h
  · next tick code tid data hfields =>
    obtain ⟨_, -, h⟩ := Option.bind_eq_some_iff.mp h
    obtain ⟨_, -, h⟩ := Option.bind_eq_some_iff.mp h
    obtain ⟨v, hv, h⟩ := Option.bind_eq_some_iff.mp h
    obtain ⟨_, -, h⟩ := Option.bind_eq_some_iff.mp h
    obtain rfl := Option.some.inj h
    refine ⟨v, ?_, rfl⟩
    rw [transactionDraft?, hfields]
    exact hv
  · exact absurd h (by simp)

theorem toString_ne_standaloneId {i : Int} (fits : FitsInteger i) (hi : i ≠ 0) :
    toString i ≠ standaloneId := by
  intro h
  have htext : (Number.int i fits).text = (Number.int 0).text := h
  exact hi (Number.int.inj (Number.text_inj.mp htext))

section Transaction

variable {depth : Nat} {d : Draft} {e : LogEntry} (h : ofDraft? depth d = some e) {i : Int}

include h

theorem transaction_of_namesTransaction (hd : NamesTransaction d i) :
    e.transaction = toString i := by
  obtain ⟨v, hv, htransaction⟩ := exists_value?_transactionDraft h
  obtain ⟨t, ht, hspells⟩ := hd
  rw [Option.mem_def.mp ht, Option.getD_some] at hv
  rw [htransaction]
  cases hspells with
  | number fits => rw [← Option.some.inj hv]; rfl
  | string => rw [← Option.some.inj hv]; rfl

/-- **An entry belongs to the transaction of an integer** when its record names the integer, as
a number or as a string. -/
theorem transaction_eq_toString_iff (fits : FitsInteger i) (hi : i ≠ 0) :
    e.transaction = toString i ↔ NamesTransaction d i := by
  refine ⟨fun heq => ?_, transaction_of_namesTransaction h⟩
  obtain ⟨v, hv, htransaction⟩ := exists_value?_transactionDraft h
  rw [heq] at htransaction
  -- what is left out reads as `null`, so the id of any other value is there
  have hnamed : ∀ t, (transactionDraft? d).getD .null = t → t ≠ .null → SpellsId i t →
      NamesTransaction d i := by
    intro t ht hnull hspells
    cases hd : transactionDraft? d with
    | none => exact absurd (ht.symm.trans (by rw [hd]; rfl)) hnull
    | some t' =>
      rw [hd, Option.getD_some] at ht
      exact ⟨t', hd, ht ▸ hspells⟩
  cases v with
  | string s =>
    obtain rfl : toString i = s := htransaction
    exact hnamed _ (Json.eq_draft_of_value? hv (by simp) (by simp)) (by simp [Json.draft]) .string
  | number n =>
    have htext : (Number.int i fits).text = n.text := htransaction
    obtain rfl := Number.text_inj.mp htext
    exact hnamed _ (Json.eq_draft_of_value? hv (by simp) (by simp)) (by simp [Json.draft])
      (.number fits)
  | _ => exact absurd htransaction (toString_ne_standaloneId fits hi)

/-- **Outside any transaction** is what names no transaction or names zero. -/
theorem isStandalone_of_transactionDraft
    (hd : transactionDraft? d = none ∨ transactionDraft? d = some .null ∨ NamesTransaction d 0) :
    e.isStandalone = true := by
  rw [isStandalone_iff]
  have habsent : (transactionDraft? d).getD .null = .null → e.transaction = standaloneId := by
    intro hnull
    obtain ⟨v, hv, htransaction⟩ := exists_value?_transactionDraft h
    rw [hnull] at hv
    rw [htransaction, ← Option.some.inj hv]
    rfl
  rcases hd with hd | hd | hd
  · exact habsent (by rw [hd]; rfl)
  · exact habsent (by rw [hd]; rfl)
  · exact transaction_of_namesTransaction h hd

end Transaction

end LogEntry

/-! ### Batches -/

open LogEntry Transactions

theorem ofLine_eq_ok_iff {line : String} {e : LogEntry} :
    ofLine line = .ok e ↔ ∃ d, Draft.parse? line = some d ∧ ofDraft? innerDepth d = some e := by
  rw [ofLine, ← Option.bind_eq_some_iff]
  cases (Draft.parse? line).bind (ofDraft? innerDepth) with
  | none => simp
  | some e' => simp

/-- **Numbers and strings mean the same in the log.**  Bodies whose records differ only in how
they spell positions and ids are read as the same entries, or fail alike.  The entries of a
body belong to the transaction of an integer when their records name it in one of the two
ways, and to no transaction when the id is zero in one of the two ways, null or left out.  So
whatever ways are mixed in a transaction, its documents come out together at its commit or
not at all at its abort, and it is not open then. -/
theorem readBatch_of_respelt :
    (∀ body body', List.Forall₂ RespeltLine (batchLines body) (batchLines body') →
      readBatch body = readBatch body') ∧
    ∀ body entries, readBatch body = .ok entries →
      List.Forall₂ (fun line e => ∃ d, Draft.parse? line = some d ∧
          (∀ i, FitsInteger i → i ≠ 0 → (e.transaction = toString i ↔ NamesTransaction d i)) ∧
          (transactionDraft? d = none ∨ transactionDraft? d = some .null ∨ NamesTransaction d 0 →
            e.isStandalone = true))
        (batchLines body) entries ∧
      ∀ (c : Cursor) (last : Nat) (i : Int) before first middle ending after,
        FitsInteger i → i ≠ 0 → IsTransaction (toString i) first middle ending →
        entries = before ++ (first :: (middle ++ [ending])) ++ after →
        let opening := c.transactions.run before
        let others := opening.1.run (ofOthers (toString i) middle)
        let applied := c.apply last entries
        ∃ closed, held? (toString i) closed = none ∧ AgreeBut (toString i) closed others.1 ∧
          applied.1.transactions = (run closed after).1 ∧
          applied.2 = opening.2 ++
            (others.2 ++ outcome ending (documentsOf (toString i) middle) ++
              (run closed after).2) := by
  refine ⟨fun body body' h => ?_, fun body entries hread => ⟨?_, ?_⟩⟩
  · exact mapM_eq_of_forall₂ (h.imp fun _ _ => ofLine_of_respeltLine)
  · refine (forall₂_of_mapM_eq_ok hread).imp fun line e hline => ?_
    obtain ⟨d, hd, he⟩ := ofLine_eq_ok_iff.mp hline
    exact ⟨d, hd, fun i fits hi => transaction_eq_toString_iff he fits hi,
      isStandalone_of_transactionDraft he⟩
  · rintro c last i before first middle ending after fits hi htransaction rfl
    exact c.apply_transaction last (toString_ne_standaloneId fits hi) htransaction before after

/-- A transaction that mixes both ways, with another document in its midst.  In the other body
an id and a position are respelt, and the lines end differently. -/
theorem readBatch_of_respelt_mixed :
    let document (id : String) : Json := .object [("_id", .string id)]
    let start (tid : Json) : Json := .object [("type", .number (.int 2200)), ("tid", tid)]
    let upsert (tick : Json) : Json :=
      .array [tick, .number (.int 2300), .number (.int 7), document "a/1"]
    let other := "[null,2300,0,\x7b\"_id\":\"b/1\"\x7d]"
    let commit := "\x7b\"tid\": \"7\", \"type\": 2201\x7d"
    let body := (start (.number (.int 7))).compact ++ "\n\n" ++ (upsert (.number (.int 4))).compact
      ++ "\n" ++ other ++ "\r\n" ++ commit
    let body' := (start (.string "7")).compact ++ "\n" ++ (upsert (.string "4")).compact
      ++ "\n" ++ other ++ "\n" ++ commit
    let first : LogEntry := { code := 2200, transaction := "7" }
    let middle : List LogEntry := [
      { tick := some 4, code := 2300, transaction := "7", data := document "a/1" },
      { code := 2300, data := document "b/1" }]
    let ending : LogEntry := { code := 2201, transaction := "7" }
    let entries := [] ++ (first :: (middle ++ [ending])) ++ []
    let applied := ({ tick := 3 } : Cursor).apply 5 entries
    List.Forall₂ RespeltLine (batchLines body) (batchLines body') ∧
      readBatch body = .ok entries ∧ readBatch body' = .ok entries ∧ FitsInteger 7 ∧
      IsTransaction (toString (7 : Int)) first middle ending ∧ held? "7" applied.1.transactions = none ∧
      applied.2.events.map ChangeEvent.document = [document "b/1", document "a/1"] := by
  intro document start upsert other commit body body' first middle ending entries applied
  have hfits : FitsInteger 7 := by decide
  have hlines : batchLines body = [(start (.number (.int 7))).compact,
      (upsert (.number (.int 4))).compact, other, commit] := by decide +kernel
  have hlines' : batchLines body' = [(start (.string "7")).compact,
      (upsert (.string "4")).compact, other, commit] := by decide +kernel
  have htext : ∀ v ∈ [start (.number (.int 7)), start (.string "7"), upsert (.number (.int 4)),
      upsert (.string "4")], v.IsText v.compact.toList := by
    have hlegible : ∀ v ∈ [start (.number (.int 7)), start (.string "7"),
        upsert (.number (.int 4)), upsert (.string "4")], v.IsLegible Draft.depthLimit := by
      decide +kernel
    exact fun v hv => Json.isText_compact fun _ => (hlegible v hv).readsBack
  have hrespelt : List.Forall₂ RespeltLine (batchLines body) (batchLines body') := by
    rw [hlines, hlines']
    refine .cons ?_ (.cons ?_ (.cons (Or.inl rfl) (.cons (Or.inl rfl) .nil)))
    · exact respeltLine_of_isText (htext _ (by simp)) (htext _ (by simp))
        (@respelt_object [_] _ "tid" (Or.inr rfl) 7 hfits)
    · have hfour : FitsInteger 4 := by decide
      exact respeltLine_of_isText (htext _ (by simp)) (htext _ (by simp))
        (.array (.respelt hfour (.number hfour) .string) _ (.refl _) _)
  have hread : readBatch body = .ok entries := by decide +kernel
  have hwhole : IsTransaction (toString (7 : Int)) first middle ending :=
    ⟨rfl, rfl, by decide +kernel, Or.inl rfl, rfl⟩
  obtain ⟨hsame, hbatch⟩ := readBatch_of_respelt
  obtain ⟨-, htransaction⟩ := hbatch body entries hread
  obtain ⟨closed, hclosed, -, hafter, heffect⟩ := htransaction { tick := 3 } 5 7 [] first middle
    ending [] hfits (by decide) hwhole rfl
  have hnothing : (run closed []).2 = {} := rfl
  refine ⟨hrespelt, hread, (hsame body body' hrespelt).symm.trans hread, hfits, hwhole, ?_, ?_⟩
  · rw [hafter]
    exact hclosed
  · rw [heffect, hnothing]
    decide +kernel

end Docstore
