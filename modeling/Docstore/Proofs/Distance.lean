import Docstore.Distance
import Docstore.Proofs.Decimal.Reading
import Docstore.Proofs.Failure
import Docstore.Proofs.Text.Trimming

/-!
# Reading distance criteria

A pair of coordinates comes as a list of two values or as one text with a comma, and each form
has a reader of its own.  The list reader takes a text as a whole, the other cuts at the first
comma, wherever that is.  They agree on any two texts: no decimal holds a comma, so when there
is one too many, both refuse (`IsPairOf.coordinatePair?_eq`).

* `Json.Denotes` says which number a value stands for, and `Json.IsFinite` for which values
  there is one.
* `ofMembers_eq_of_perm`: the order of the members does not matter.
* `ofJson_of_isSearch` puts these together: the four ways to write a search are accepted
  alike, and it says what they are accepted as.
-/

namespace Docstore

/-! ### The number of a value -/

theorem Binary64.natAbs_lt_overflow {i : Int} (h : FitsInteger i) :
    (i.natAbs : ℚ) < overflow := by
  have hbits : i.natAbs ≤ 18446744073709551616 := by
    have := h.1
    have := h.2
    omega
  calc (i.natAbs : ℚ) ≤ 18446744073709551616 := by exact_mod_cast hbits
    _ < (36028797018963966 : Nat) * 2 ^ (10 : Int) := by norm_num
    _ ≤ (36028797018963966 : Nat) * 2 ^ (969 : Int) :=
        mul_le_mul_of_nonneg_left (zpow_le_zpow_right₀ (by norm_num) (by decide))
          (Nat.cast_nonneg _)
    _ = overflow := overflow_eq.symm

namespace Json

/-- The value is the number, or an integer to which it is nearest, or a text that spells such a
decimal; blanks around it do not matter. -/
inductive Denotes : Json → Binary64 → Prop where
  | int {i : Int} {fits : FitsInteger i} {x : Binary64} (hsign : x.negative = decide (i < 0))
      (hx : x.Surrounds i.natAbs) : Denotes (.number (.int i fits)) x
  | float (x : Binary64) : Denotes (.number (.float x)) x
  | text {s : String} {x : Binary64} {v : ℚ}
      (hs : Numeral.SpellsNumber (Text.trim s) x.negative v) (hx : x.Surrounds v) :
      Denotes (.string s) x

/-- The value is a number, or a text that spells a decimal that is not too large. -/
inductive IsFinite : Json → Prop where
  | number (n : Number) : IsFinite (.number n)
  | text {s : String} {negative : Bool} {v : ℚ}
      (hs : Numeral.SpellsNumber (Text.trim s) negative v) (hv : v < Binary64.overflow) :
      IsFinite (.string s)

theorem toBinary64?_string (s : String) :
    toBinary64? (.string s) = Numeral.decimal? (Text.trim s) := rfl

/-- **The reader of numbers** takes a value as the number that it denotes. -/
theorem toBinary64?_eq_some_iff {v : Json} {x : Binary64} :
    v.toBinary64? = some x ↔ v.Denotes x := by
  constructor
  · intro h
    cases v with
    | number n =>
      cases n with
      | int i fits =>
        obtain ⟨hsign, hx⟩ := (Binary64.isRounding_ofInt? i).eq_some_iff.mp h
        exact .int hsign hx
      | float y =>
        obtain rfl : y = x := Option.some.inj h
        exact .float y
    | string s =>
      rw [toBinary64?_string, Numeral.decimal?_eq_some_iff] at h
      obtain ⟨v, hs, hx⟩ := h
      exact .text hs hx
    | _ => exact absurd h (by simp [toBinary64?])
  · intro h
    cases h with
    | int hsign hx => exact (Binary64.isRounding_ofInt? _).eq_some_iff.mpr ⟨hsign, hx⟩
    | float => rfl
    | text hs hx =>
      rw [toBinary64?_string, Numeral.decimal?_eq_some_iff]
      exact ⟨_, hs, hx⟩

theorem exists_denotes_iff {v : Json} : (∃ x, v.Denotes x) ↔ v.IsFinite := by
  constructor
  · rintro ⟨x, h⟩
    cases h with
    | int => exact .number _
    | float => exact .number _
    | text hs hx => exact .text hs hx.lt_overflow
  · intro h
    cases h with
    | number n =>
      cases n with
      | int i fits =>
        have hlt := Binary64.natAbs_lt_overflow fits
        obtain ⟨x, hx⟩ := (Binary64.isRounding_ofInt? i).exists_iff.mpr hlt
        exact ⟨x, toBinary64?_eq_some_iff.mp hx⟩
      | float x => exact ⟨x, .float x⟩
    | text hs hv =>
      obtain ⟨x, hx⟩ := Numeral.exists_decimal?_iff.mpr ⟨_, _, hs, hv⟩
      exact ⟨x, toBinary64?_eq_some_iff.mp hx⟩

end Json

def Failure.BlamesDistance (f : Failure) : Prop := ∃ reason, f = .invalidDistance reason

namespace Distance

theorem failsOnly_ofJson (v : Json) : FailsOnly Failure.BlamesDistance (ofJson v) := by
  rw [ofJson.eq_def]
  split
  · rw [ofMembers]
    split
    · exact .error ⟨_, rfl⟩
    split
    · split
      · exact .ok _
      · exact .error ⟨_, rfl⟩
    · exact .error ⟨_, rfl⟩
  · exact .error ⟨_, rfl⟩

/-! ### Two forms of a pair -/

/-- Two texts as a list, or as one text with a comma between them. -/
inductive IsPairOf (a b : String) : Json → Prop where
  | listed : IsPairOf a b (.array [.string a, .string b])
  | joined : IsPairOf a b (.string (a ++ "," ++ b))

/-- A text with a comma denotes no number. -/
theorem toBinary64?_eq_none_of_mem_comma {s : String} (h : ',' ∈ s.toList) :
    Json.toBinary64? (.string s) = none := by
  rw [Json.toBinary64?_string]
  exact Numeral.decimal?_eq_none_of_mem_comma (Text.mem_trim h (by decide))

theorem coordinatePair?_list (latitude longitude : Json) :
    coordinatePair? (.array [latitude, longitude]) =
      latitude.toBinary64?.bind fun x => longitude.toBinary64?.bind fun y => some (x, y) := rfl

theorem coordinatePair?_text (s : String) :
    coordinatePair? (.string s) =
      (Text.cutAtFirst? ',' s).bind fun p =>
        coordinatePair? (.array [.string p.1, .string p.2]) := by
  simp only [coordinatePair?_list, Json.toBinary64?_string]
  rfl

theorem coordinatePair?_joined {left : String} (hleft : ',' ∉ left.toList) (right : String) :
    coordinatePair? (.string (left ++ "," ++ right)) =
      coordinatePair? (.array [.string left, .string right]) := by
  have hcut : Text.cutAtFirst? ',' (left ++ "," ++ right) = some (left, right) :=
    Text.cutAtFirst?_eq_some_iff.mpr ⟨rfl, hleft⟩
  rw [coordinatePair?_text, hcut, Option.bind_some]

/-- **Both forms of a pair are read alike**, whatever the texts hold. -/
theorem IsPairOf.coordinatePair?_eq {a b : String} {pair : Json} (h : IsPairOf a b pair) :
    coordinatePair? pair = coordinatePair? (.array [.string a, .string b]) := by
  cases h with
  | listed => rfl
  | joined =>
    by_cases hcomma : ',' ∈ a.toList
    · -- the first comma stands inside of `a`, and what is behind it has the other one
      obtain ⟨left, right, ha, hleft⟩ := Text.exists_append_of_mem hcomma
      have hjoined : a ++ "," ++ b = left ++ "," ++ (right ++ "," ++ b) := by
        rw [show a = left ++ "," ++ right from ha]
        simp only [String.append_assoc]
      have hrest : Json.toBinary64? (.string (right ++ "," ++ b)) = none :=
        toBinary64?_eq_none_of_mem_comma (by simp)
      rw [hjoined, coordinatePair?_joined hleft, coordinatePair?_list, coordinatePair?_list, hrest,
        toBinary64?_eq_none_of_mem_comma hcomma]
      simp only [Option.bind_none, Option.bind_fun_none]
    · exact coordinatePair?_joined hcomma b

theorem coordinatePair?_list_eq_some_iff {latitude longitude : Json} {x y : Binary64} :
    coordinatePair? (.array [latitude, longitude]) = some (x, y) ↔
      latitude.Denotes x ∧ longitude.Denotes y := by
  rw [← Json.toBinary64?_eq_some_iff, ← Json.toBinary64?_eq_some_iff, coordinatePair?_list]
  simp [Option.bind_eq_some_iff]

/-! ### The members -/

/-- **The order of the members does not matter.** -/
theorem ofMembers_eq_of_perm {members members' : Dictionary Json} (h : members.keys.Nodup)
    (hperm : members.Perm members') : ofMembers members = ofMembers members' := by
  have hothers := hperm.filter fun m => decide (m.1 ≠ radiusKey)
  rw [ofMembers, ofMembers, Dictionary.get?_eq_of_perm h hperm]
  generalize members.filter (fun m => decide (m.1 ≠ radiusKey)) = others at hothers ⊢
  generalize members'.filter (fun m => decide (m.1 ≠ radiusKey)) = others' at hothers ⊢
  match others, others', hothers with
  | [], _, hothers => rw [List.nil_perm.mp hothers]
  | [_], _, hothers => rw [List.singleton_perm.mp hothers]
  | _ :: _ :: _, [], hothers => exact absurd hothers.length_eq (by simp)
  | _ :: _ :: _, [_], hothers => exact absurd hothers.length_eq (by simp)
  | _ :: _ :: _, _ :: _ :: _, _ => rfl

/-- The circle of an attribute, a radius and two coordinates; the radius has no sign. -/
structure IsCircleOf (path : String) (radius latitude longitude : Json) (d : Distance) : Prop where
  path : d.path = path
  radius : ∃ r, radius.Denotes r ∧ d.radius = r.abs
  latitude : latitude.Denotes d.latitude
  longitude : longitude.Denotes d.longitude

section

variable {path : String} {radius latitude longitude : Json}

theorem exists_isCircleOf_iff :
    (∃ d, IsCircleOf path radius latitude longitude d) ↔
      radius.IsFinite ∧ latitude.IsFinite ∧ longitude.IsFinite := by
  rw [← Json.exists_denotes_iff, ← Json.exists_denotes_iff, ← Json.exists_denotes_iff]
  constructor
  · rintro ⟨d, -, ⟨r, hr, -⟩, hlatitude, hlongitude⟩
    exact ⟨⟨r, hr⟩, ⟨_, hlatitude⟩, ⟨_, hlongitude⟩⟩
  · rintro ⟨⟨r, hr⟩, ⟨x, hx⟩, ⟨y, hy⟩⟩
    exact ⟨⟨path, r.abs, x, y⟩, rfl, ⟨r, hr, rfl⟩, hx, hy⟩

theorem ofMembers_eq_ok_iff (hpath : path ≠ radiusKey) {pair : Json}
    (hpair : coordinatePair? pair = coordinatePair? (.array [latitude, longitude]))
    {d : Distance} :
    ofMembers [(path, pair), (radiusKey, radius)] = .ok d ↔
      IsCircleOf path radius latitude longitude d := by
  have hradius : Dictionary.get? radiusKey [(path, pair), (radiusKey, radius)] = some radius := by
    rw [Dictionary.get?, if_neg hpath, Dictionary.get?, if_pos rfl]
  have hothers : [(path, pair), (radiusKey, radius)].filter (fun m => decide (m.1 ≠ radiusKey)) =
      [(path, pair)] := by
    rw [List.filter_cons_of_pos (by simpa using hpath), List.filter_cons_of_neg (by simp)]
    rfl
  rw [ofMembers, hradius, hothers, Option.bind_some]
  simp only [hpair]
  constructor
  · intro h
    split at h
    · exact absurd h (by simp)
    · next r hr =>
      split at h
      · next x y hxy =>
        obtain ⟨hx, hy⟩ := coordinatePair?_list_eq_some_iff.mp hxy
        obtain rfl := Except.ok.inj h
        exact ⟨rfl, ⟨r, Json.toBinary64?_eq_some_iff.mp hr, rfl⟩, hx, hy⟩
      · exact absurd h (by simp)
  · rintro ⟨rfl, ⟨r, hr, habs⟩, hx, hy⟩
    rw [Json.toBinary64?_eq_some_iff.mpr hr, coordinatePair?_list_eq_some_iff.mpr ⟨hx, hy⟩]
    simp only [← habs]

end

/-! ### The four forms of a search -/

/-- An object with a pair under an attribute and with a radius, in either order. -/
inductive IsSearch (path : String) (radius : Json) (a b : String) : Json → Prop where
  | radiusLast {pair : Json} (hpair : IsPairOf a b pair) :
      IsSearch path radius a b (.object [(path, pair), (radiusKey, radius)])
  | radiusFirst {pair : Json} (hpair : IsPairOf a b pair) :
      IsSearch path radius a b (.object [(radiusKey, radius), (path, pair)])

theorem IsSearch.ofJson_eq_ok_iff {path : String} (hpath : path ≠ radiusKey) {radius : Json}
    {a b : String} {v : Json} (h : IsSearch path radius a b v) {d : Distance} :
    ofJson v = .ok d ↔ IsCircleOf path radius (.string a) (.string b) d := by
  cases h with
  | radiusLast hpair => exact ofMembers_eq_ok_iff hpath hpair.coordinatePair?_eq
  | @radiusFirst pair hpair =>
    have hnodup : (Dictionary.keys [(radiusKey, radius), (path, pair)]).Nodup := by
      simpa [Dictionary.keys] using hpath.symm
    rw [ofJson, ofMembers_eq_of_perm hnodup (.swap _ _ _)]
    exact ofMembers_eq_ok_iff hpath hpair.coordinatePair?_eq

/-- **The four forms of a search are read alike**: with its two coordinates as a list or as one
text, and with its members in either order.  They are all accepted, as the same circle, when the
radius and both coordinates are finite, and all refused as wrong criteria otherwise.  The circle
has the coordinates that the texts spell, and the radius without its sign. -/
theorem ofJson_of_isSearch {path : String} (hpath : path ≠ radiusKey) (radius : Json)
    (a b : String) :
    ((∃ d, ∀ v, IsSearch path radius a b v → ofJson v = .ok d) ∨
        ∀ v, IsSearch path radius a b v → ∃ reason, ofJson v = .error (.invalidDistance reason)) ∧
      ∀ v, IsSearch path radius a b v →
        (∀ d, ofJson v = .ok d ↔ IsCircleOf path radius (.string a) (.string b) d) ∧
        ((∃ d, ofJson v = .ok d) ↔
          radius.IsFinite ∧ Json.IsFinite (.string a) ∧ Json.IsFinite (.string b)) := by
  refine ⟨?_, fun v hv => ⟨fun d => hv.ofJson_eq_ok_iff hpath, ?_⟩⟩
  · by_cases hcircle : ∃ d, IsCircleOf path radius (.string a) (.string b) d
    · obtain ⟨d, hd⟩ := hcircle
      exact .inl ⟨d, fun v hv => (hv.ofJson_eq_ok_iff hpath).mpr hd⟩
    · refine .inr fun v hv => ?_
      cases hread : ofJson v with
      | ok d => exact absurd ⟨d, (hv.ofJson_eq_ok_iff hpath).mp hread⟩ hcircle
      | error f =>
        obtain ⟨reason, rfl⟩ := failsOnly_ofJson v f hread
        exact ⟨reason, rfl⟩
  · simp only [hv.ofJson_eq_ok_iff hpath]
    exact exists_isCircleOf_iff

/-- Blanks, a plus, an exponent and a point in front are read alike in all forms.  A comma too
many is refused in all of them, and so are a word for an infinity and a decimal that is too
large. -/
theorem ofJson_of_isSearch_padded :
    let radius : Json := .number (.int (-20))
    let circle : Distance :=
      ⟨"pos", ⟨false, 5629499534213120, -48, by decide⟩, ⟨false, 6755399441055744, -52, by decide⟩,
        ⟨false, 5629499534213120, -50, by decide⟩⟩
    "pos" ≠ radiusKey ∧ (∀ v, IsSearch "pos" radius " 1.5" "+.5e1\t" v → ofJson v = .ok circle) ∧
      ∀ p ∈ [("1,2", "3"), ("inf", "3"), ("0", "1e400")], ∀ v, IsSearch "pos" radius p.1 p.2 v →
        ∃ reason, ofJson v = .error (.invalidDistance reason) := by
  intro radius circle
  have hpath : "pos" ≠ radiusKey := by decide
  -- one form is enough to know what becomes of all of them
  let form (a b : String) : Json :=
    .object [("pos", .array [.string a, .string b]), (radiusKey, radius)]
  have hform (a b : String) : IsSearch "pos" radius a b (form a b) := .radiusLast .listed
  refine ⟨hpath, fun v hv => ?_, fun p hp => ?_⟩
  · have hread : ofJson (form " 1.5" "+.5e1\t") = .ok circle := rfl
    obtain ⟨-, heach⟩ := ofJson_of_isSearch hpath radius " 1.5" "+.5e1\t"
    exact ((heach v hv).1 circle).mpr (((heach _ (hform _ _)).1 circle).mp hread)
  · have hrefused : ∀ p ∈ [("1,2", "3"), ("inf", "3"), ("0", "1e400")],
        (ofJson (form p.1 p.2)).isOk = false := by decide +kernel
    rcases (ofJson_of_isSearch hpath radius p.1 p.2).1 with ⟨d, hd⟩ | hall
    · have hread := hrefused p hp
      rw [hd _ (hform p.1 p.2)] at hread
      exact Bool.noConfusion hread
    · exact hall

end Distance

end Docstore
