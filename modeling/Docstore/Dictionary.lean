/-!
# Dictionaries that keep their order

A dictionary is a list of entries.  Its order is the order in which keys came in: writing to a key
that is already there replaces the value where it stands, and a new key goes to the end.  The
lemmas say what each operation does to the look-up and to the list of keys, which is all that
later modules use.
-/

namespace Docstore

/-- Entries in the order in which their keys were first written. -/
abbrev Dictionary (β : Type _) := List (String × β)

namespace Dictionary

variable {β γ : Type _}

/-- The value of the first entry with this key. -/
def get? (key : String) : Dictionary β → Option β
  | [] => none
  | (k, v) :: rest => if k = key then some v else get? key rest

def has (key : String) (d : Dictionary β) : Bool := (get? key d).isSome

/-- Writes a value: in place when the key is there, at the end otherwise. -/
def put (key : String) (value : β) : Dictionary β → Dictionary β
  | [] => [(key, value)]
  | (k, v) :: rest => if k = key then (k, value) :: rest else (k, v) :: put key value rest

def erase (key : String) : Dictionary β → Dictionary β
  | [] => []
  | (k, v) :: rest => if k = key then erase key rest else (k, v) :: erase key rest

def keys (d : Dictionary β) : List String := d.map Prod.fst

/-- Writes entries one after the other. -/
def putAll (entries : List (String × β)) (d : Dictionary β) : Dictionary β :=
  entries.foldl (fun acc e => acc.put e.1 e.2) d

/-- The dictionary that results from writing the entries in order: a repeated key stands where it
was first written and has the value that was written last. -/
def ofEntries (entries : List (String × β)) : Dictionary β := putAll entries []

/-- The value of the last entry with this key. -/
def last? (key : String) : List (String × β) → Option β
  | [] => none
  | (k, v) :: rest => (last? key rest).or (if k = key then some v else none)

theorem get?_put (d : Dictionary β) (key other : String) (value : β) :
    (d.put key value).get? other = if key = other then some value else d.get? other := by
  induction d with
  | nil => simp [put, get?]
  | cons e rest ih =>
      obtain ⟨k, v⟩ := e
      by_cases hk : k = key
      · subst hk
        simp only [put, if_true, get?]
        split <;> rfl
      · simp only [put, if_neg hk, get?, ih]
        by_cases ho : k = other
        · subst ho
          simp [Ne.symm hk]
        · simp [ho]

theorem get?_put_self (d : Dictionary β) (key : String) (value : β) :
    (d.put key value).get? key = some value := by
  simp [get?_put]

theorem get?_put_of_ne (d : Dictionary β) {key other : String} (value : β) (h : key ≠ other) :
    (d.put key value).get? other = d.get? other := by
  simp [get?_put, h]

theorem get?_erase (d : Dictionary β) (key other : String) :
    (d.erase key).get? other = if key = other then none else d.get? other := by
  induction d with
  | nil => simp [erase, get?]
  | cons e rest ih =>
      obtain ⟨k, v⟩ := e
      by_cases hk : k = key
      · subst hk
        rw [erase, if_pos rfl, ih, get?]
        split <;> rfl
      · rw [erase, if_neg hk, get?, get?, ih]
        by_cases ho : k = other
        · subst ho
          simp [Ne.symm hk]
        · simp [ho]

/-- A key is found exactly when it is listed. -/
theorem get?_isSome_iff (d : Dictionary β) (key : String) :
    (d.get? key).isSome = true ↔ key ∈ d.keys := by
  induction d with
  | nil => simp [get?, keys]
  | cons e rest ih =>
      obtain ⟨k, v⟩ := e
      simp only [keys] at ih
      by_cases hk : k = key
      · simp [get?, keys, hk]
      · simp [get?, keys, hk, ih, Ne.symm hk]

theorem get?_eq_none_iff (d : Dictionary β) (key : String) :
    d.get? key = none ↔ key ∉ d.keys := by
  rw [← get?_isSome_iff, Option.not_isSome_iff_eq_none]

/-- Writing only where the key is missing keeps all that is there. -/
theorem get?_put_unless_has (d : Dictionary β) (key other : String) (value : β) :
    get? other (if d.has key then d else d.put key value) =
      (d.get? other).or (if other = key then some value else none) := by
  by_cases ho : other = key
  · subst ho
    rw [has, if_pos rfl]
    cases hd : d.get? other with
    | none => simp [get?_put_self]
    | some v => simp [hd]
  · rw [if_neg ho, Option.or_none]
    split
    · rfl
    · exact get?_put_of_ne d value (Ne.symm ho)

/-- Writing to a present key moves nothing; a new key goes to the end. -/
theorem keys_put (d : Dictionary β) (key : String) (value : β) :
    (d.put key value).keys = if key ∈ d.keys then d.keys else d.keys ++ [key] := by
  induction d with
  | nil => simp [put, keys]
  | cons e rest ih =>
      obtain ⟨k, v⟩ := e
      by_cases hk : k = key
      · simp [put, keys, hk]
      · have hcons : keys ((k, v) :: rest) = k :: keys rest := rfl
        have hput : keys ((k, v) :: put key value rest) = k :: keys (put key value rest) := rfl
        rw [put, if_neg hk, hput, ih, hcons]
        by_cases hm : key ∈ keys rest
        · simp [hm]
        · simp [hm, Ne.symm hk]

/-- A dictionary built by writing has no key twice. -/
theorem nodup_keys_put {d : Dictionary β} (h : d.keys.Nodup) (key : String) (value : β) :
    (d.put key value).keys.Nodup := by
  rw [keys_put]
  split
  · exact h
  · next hn =>
      exact List.nodup_append.2 ⟨h, by simp, by
        intro a ha b hb
        simp only [List.mem_singleton] at hb
        subst hb
        exact fun hab => hn (hab ▸ ha)⟩

/-- Removing a key leaves the others in order. -/
theorem keys_erase (d : Dictionary β) (key : String) :
    (d.erase key).keys = d.keys.filter fun k => !decide (k = key) := by
  induction d with
  | nil => rfl
  | cons e rest ih =>
      obtain ⟨k, v⟩ := e
      simp only [keys] at ih
      by_cases hk : k = key
      · simp [erase, keys, hk, ih]
      · simp [erase, keys, hk, ih]

theorem nodup_keys_erase {d : Dictionary β} (h : d.keys.Nodup) (key : String) :
    (d.erase key).keys.Nodup := by
  rw [keys_erase]
  exact List.Pairwise.filter _ h

theorem nodup_keys_putAll {d : Dictionary β} (h : d.keys.Nodup) (entries : List (String × β)) :
    (d.putAll entries).keys.Nodup := by
  induction entries generalizing d with
  | nil => exact h
  | cons e rest ih => exact ih (nodup_keys_put h e.1 e.2)

theorem nodup_keys_ofEntries (entries : List (String × β)) : (ofEntries entries).keys.Nodup :=
  nodup_keys_putAll (by simp [keys]) entries

/-- What is found after entries have been written is the last of them with the key, or else what
was there before. -/
theorem get?_putAll (entries : List (String × β)) (d : Dictionary β) (key : String) :
    (d.putAll entries).get? key = (last? key entries).or (d.get? key) := by
  induction entries generalizing d with
  | nil => rfl
  | cons e rest ih =>
      obtain ⟨k, v⟩ := e
      show get? key (putAll rest (d.put k v)) = _
      rw [ih, get?_put, last?, Option.or_assoc]
      by_cases hk : k = key
      · rw [if_pos hk, if_pos hk, Option.some_or]
      · rw [if_neg hk, if_neg hk, Option.none_or]

theorem get?_ofEntries (entries : List (String × β)) (key : String) :
    (ofEntries entries).get? key = last? key entries := by
  rw [ofEntries, get?_putAll, get?, Option.or_none]

theorem mem_of_last?_eq_some {entries : List (String × β)} {key : String} {value : β}
    (h : last? key entries = some value) : (key, value) ∈ entries := by
  induction entries with
  | nil => exact absurd h (by simp [last?])
  | cons e rest ih =>
      obtain ⟨k, v⟩ := e
      rw [last?] at h
      rcases Option.or_eq_some_iff.mp h with hrest | ⟨-, hfirst⟩
      · exact List.mem_cons_of_mem _ (ih hrest)
      · by_cases hk : k = key
        · rw [if_pos hk] at hfirst
          rw [← hk, Option.some.inj hfirst]
          exact List.mem_cons_self
        · rw [if_neg hk] at hfirst
          exact absurd hfirst (by simp)

/-- Where no key stands twice, the last entry with a key is the first. -/
theorem last?_eq_get? {d : Dictionary β} (h : d.keys.Nodup) (key : String) :
    last? key d = d.get? key := by
  induction d with
  | nil => rfl
  | cons e rest ih =>
      obtain ⟨k, v⟩ := e
      obtain ⟨hnew, hrest⟩ := List.nodup_cons.mp h
      rw [last?, get?, ih hrest]
      by_cases hk : k = key
      · have hnone : get? key rest = none := by rw [get?_eq_none_iff, ← hk]; exact hnew
        rw [if_pos hk, if_pos hk, hnone, Option.none_or]
      · rw [if_neg hk, if_neg hk, Option.or_none]

/-- Writing entries appends the keys that are new, each where it comes first. -/
theorem keys_putAll (entries : List (String × β)) (d : Dictionary β) :
    (d.putAll entries).keys =
      d.keys ++ ((entries.map Prod.fst).filter fun k => decide (k ∉ d.keys)).eraseDups := by
  induction entries generalizing d with
  | nil => simp [putAll]
  | cons e rest ih =>
      obtain ⟨k, v⟩ := e
      show keys (putAll rest (d.put k v)) = _
      rw [ih, keys_put, List.map_cons]
      by_cases hk : k ∈ d.keys
      · rw [if_pos hk, List.filter_cons_of_neg (by simpa using hk)]
      · have hnew : ∀ j, decide (j ∉ d.keys ++ [k]) = (!(j == k) && decide (j ∉ d.keys)) := by
          intro j
          rw [Bool.eq_iff_iff]
          simp [and_comm]
        rw [if_neg hk, List.filter_cons_of_pos (by simpa using hk), List.eraseDups_cons,
          List.filter_filter, List.filter_congr fun j _ => hnew j, List.append_assoc,
          List.singleton_append]

/-- The keys of what is written stand in the order in which they were first mentioned. -/
theorem keys_ofEntries (entries : List (String × β)) :
    (ofEntries entries).keys = (entries.map Prod.fst).eraseDups := by
  have hall : (entries.map Prod.fst).filter (fun k => decide (k ∉ keys ([] : Dictionary β))) =
      entries.map Prod.fst := List.filter_eq_self.mpr (by simp [keys])
  rw [ofEntries, keys_putAll, hall]
  rfl

/-- A key that is not there goes to the end. -/
theorem put_of_not_mem {d : Dictionary β} {key : String} (h : key ∉ d.keys) (value : β) :
    d.put key value = d ++ [(key, value)] := by
  induction d with
  | nil => rfl
  | cons e rest ih =>
      obtain ⟨k, v⟩ := e
      rw [put, if_neg (List.ne_of_not_mem_cons h).symm, ih (List.not_mem_of_not_mem_cons h)]
      rfl

/-- Entries with keys of their own go to the end one after the other. -/
theorem putAll_eq_append {d entries : Dictionary β} (h : (keys (d ++ entries)).Nodup) :
    d.putAll entries = d ++ entries := by
  induction entries generalizing d with
  | nil => rw [List.append_nil]; rfl
  | cons e rest ih =>
      obtain ⟨k, v⟩ := e
      have hnew : k ∉ d.keys := by
        rw [keys, List.map_append] at h
        exact fun hk => (List.nodup_append.mp h).2.2 k hk k List.mem_cons_self rfl
      show putAll rest (d.put k v) = _
      rw [put_of_not_mem hnew, ih (by rwa [List.append_assoc]), List.append_assoc]
      rfl

/-- A dictionary is what its own entries make when they are written. -/
theorem ofEntries_eq_self {d : Dictionary β} (h : d.keys.Nodup) : ofEntries d = d :=
  putAll_eq_append h

/-- Changing values leaves the keys alone. -/
theorem keys_map (g : String → β → γ) (d : Dictionary β) :
    keys (d.map fun e => (e.1, g e.1 e.2)) = d.keys := by
  simp [keys]

theorem get?_map (g : String → β → γ) (d : Dictionary β) (key : String) :
    get? key (d.map fun e => (e.1, g e.1 e.2)) = (d.get? key).map (g key) := by
  induction d with
  | nil => rfl
  | cons e rest ih =>
      obtain ⟨k, v⟩ := e
      rw [List.map_cons, get?, get?, ih]
      by_cases hk : k = key
      · rw [if_pos hk, if_pos hk, hk, Option.map_some]
      · rw [if_neg hk, if_neg hk]

/-- With no key twice, every entry is found under its key. -/
theorem mem_iff_get?_eq_some {d : Dictionary β} (h : d.keys.Nodup) {key : String} {value : β} :
    (key, value) ∈ d ↔ d.get? key = some value := by
  induction d with
  | nil => simp [get?]
  | cons e rest ih =>
      obtain ⟨k, v⟩ := e
      obtain ⟨hnew, hrest⟩ := List.nodup_cons.mp h
      rw [List.mem_cons, ih hrest, get?]
      by_cases hk : k = key
      · have hnone : get? key rest = none := by rw [get?_eq_none_iff, ← hk]; exact hnew
        simp [hk, hnone, eq_comm]
      · simp [hk, Ne.symm hk]

/-- Dictionaries that agree on every look-up have the same entries. -/
theorem perm_of_get?_eq {d d' : Dictionary β} (h : d.keys.Nodup) (h' : d'.keys.Nodup)
    (heq : ∀ key, d.get? key = d'.get? key) : d.Perm d' := by
  have hentries : ∀ {c : Dictionary β}, c.keys.Nodup → List.Nodup c := by
    intro c hc
    exact List.Pairwise.of_map Prod.fst (fun _ _ hne he => hne (congrArg Prod.fst he)) hc
  refine (List.perm_ext_iff_of_nodup (hentries h) (hentries h')).mpr ?_
  rintro ⟨key, value⟩
  rw [mem_iff_get?_eq_some h, mem_iff_get?_eq_some h', heq]

/-- Without a key twice, the order of the entries does not matter to look-up. -/
theorem get?_eq_of_perm {d d' : Dictionary β} (h : d.keys.Nodup) (hperm : d.Perm d')
    (key : String) : d.get? key = d'.get? key := by
  have h' : d'.keys.Nodup := (hperm.map Prod.fst).nodup_iff.mp h
  apply Option.ext
  intro value
  rw [← mem_iff_get?_eq_some h, ← mem_iff_get?_eq_some h', hperm.mem_iff]

/-- Only the entries with the key matter to look-up. -/
theorem get?_filter (wanted : String → Bool) {key : String} (h : wanted key = true)
    (d : Dictionary β) : get? key (d.filter fun e => wanted e.1) = d.get? key := by
  induction d with
  | nil => rfl
  | cons e rest ih =>
      obtain ⟨k, v⟩ := e
      by_cases hk : k = key
      · rw [List.filter_cons_of_pos (by rw [hk]; exact h), get?, get?, if_pos hk, if_pos hk]
      · rw [get?, if_neg hk, ← ih, List.filter_cons]
        split
        · rw [get?, if_neg hk]
        · rfl

/-- Without a wanted key twice, neither the order of the wanted entries nor the others matter to
look-up under a wanted key. -/
theorem get?_eq_of_perm_filter (wanted : String → Bool) {d d' : Dictionary β}
    (h : (keys (d.filter fun e => wanted e.1)).Nodup)
    (hperm : (d.filter fun e => wanted e.1).Perm (d'.filter fun e => wanted e.1)) {key : String}
    (hkey : wanted key = true) : d.get? key = d'.get? key := by
  rw [← get?_filter wanted hkey d, ← get?_filter wanted hkey d']
  exact get?_eq_of_perm h hperm key

/-- What is in front is found first. -/
theorem get?_append (d d' : Dictionary β) (key : String) :
    get? key (d ++ d') = (d.get? key).or (d'.get? key) := by
  induction d with
  | nil => rfl
  | cons e rest ih =>
      obtain ⟨k, v⟩ := e
      rw [List.cons_append, get?, get?, ih]
      split
      · rfl
      · rfl

end Dictionary

end Docstore
