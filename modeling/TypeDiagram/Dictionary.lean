/-!
# Dictionaries

A dictionary binds texts to values, each text at most once, and lists its bindings in ascending
order of their keys.  The order is that of the UTF-8 bytes of the keys, compared one by one; it is
the order in which the keys of a document's record are visited, and the order in which the
arguments of an annotation are listed.

* `insertKey` is the one operation that changes a list of bindings: it puts a binding in its place
  and replaces one with the same key, so that **the last write wins**.
* `Dictionary` bundles such a list with the fact that its keys ascend, so that two dictionaries
  with the same values under the same keys are equal, however they were filled
  (`Dictionary.ext_get?`).
-/

set_option autoImplicit false

namespace TypeDiagram

variable {α : Type}

/-! ## The order of keys -/

/-- The bytes of a text in UTF-8. -/
def utf8Bytes (s : String) : List UInt8 := s.toByteArray.data.toList

theorem utf8Bytes_inj {s t : String} : utf8Bytes s = utf8Bytes t ↔ s = t := by
  constructor
  · intro h
    refine String.toByteArray_inj.mp (ByteArray.ext (Array.toList_inj.mp h))
  · rintro rfl
    rfl

/-- Is the first byte string before the second?  They are compared at the first place where they
differ, and a byte string is after every proper initial part of itself. -/
def bytesBefore : List UInt8 → List UInt8 → Bool
  | _, [] => false
  | [], _ :: _ => true
  | a :: as, b :: bs => decide (a.toNat < b.toNat) || (decide (a = b) && bytesBefore as bs)

/-- The order of byte strings is the lexicographic one. -/
theorem bytesBefore_eq_true_iff {as bs : List UInt8} : bytesBefore as bs = true ↔ as < bs := by
  induction as generalizing bs with
  | nil => cases bs <;> simp [bytesBefore]
  | cons a as ih =>
    cases bs with
    | nil => simp [bytesBefore]
    | cons b bs => simp [bytesBefore, List.cons_lt_cons_iff, UInt8.lt_iff_toNat_lt, ih]

/-- Does one key come before another? -/
def keyBefore (s t : String) : Bool := bytesBefore (utf8Bytes s) (utf8Bytes t)

theorem bytesBefore_irrefl (as : List UInt8) : bytesBefore as as = false := by
  rw [Bool.eq_false_iff, ne_eq, bytesBefore_eq_true_iff]
  exact List.lt_irrefl as

theorem bytesBefore_trans {as bs cs : List UInt8} (hab : bytesBefore as bs = true)
    (hbc : bytesBefore bs cs = true) : bytesBefore as cs = true := by
  rw [bytesBefore_eq_true_iff] at *
  exact List.lt_trans hab hbc

theorem bytesBefore_total {as bs : List UInt8} (hne : as ≠ bs) :
    bytesBefore as bs = true ∨ bytesBefore bs as = true := by
  rw [bytesBefore_eq_true_iff, bytesBefore_eq_true_iff]
  exact (Std.lt_trichotomy as bs).imp_right fun h ↦ h.resolve_left hne

theorem keyBefore_irrefl (s : String) : keyBefore s s = false := bytesBefore_irrefl _

theorem keyBefore_trans {s t u : String} (h : keyBefore s t = true) (h' : keyBefore t u = true) :
    keyBefore s u = true :=
  bytesBefore_trans h h'

theorem ne_of_keyBefore {s t : String} (h : keyBefore s t = true) : s ≠ t := by
  rintro rfl
  rw [keyBefore_irrefl] at h
  exact nomatch h

theorem keyBefore_asymm {s t : String} (h : keyBefore s t = true) : ¬keyBefore t s = true :=
  fun h' ↦ ne_of_keyBefore (keyBefore_trans h h') rfl

/-- Of two different keys, one is before the other. -/
theorem keyBefore_total {s t : String} (hne : s ≠ t) :
    keyBefore s t = true ∨ keyBefore t s = true :=
  bytesBefore_total fun h ↦ hne (utf8Bytes_inj.mp h)

/-! ## Lists of bindings -/

/-- The keys of a list of bindings are strictly ascending. -/
def Ascending (bindings : List (String × α)) : Prop :=
  bindings.Pairwise fun a b ↦ keyBefore a.1 b.1 = true

instance (bindings : List (String × α)) : Decidable (Ascending bindings) :=
  inferInstanceAs (Decidable (bindings.Pairwise _))

/-- Put a binding in its place among bindings with ascending keys.  A binding with the same key
is replaced. -/
def insertKey (key : String) (value : α) : List (String × α) → List (String × α)
  | [] => [(key, value)]
  | binding :: rest =>
    if key = binding.1 then (key, value) :: rest
    else if keyBefore key binding.1 then (key, value) :: binding :: rest
    else binding :: insertKey key value rest

/-- What the new list binds is the new binding and the old ones with other keys. -/
theorem mem_insertKey_of_mem {key : String} {value : α} {bindings : List (String × α)}
    {b : String × α} (h : b ∈ insertKey key value bindings) : b = (key, value) ∨ b ∈ bindings := by
  induction bindings with
  | nil => simpa [insertKey] using h
  | cons binding rest ih =>
    simp only [insertKey] at h
    split at h
    · rcases List.mem_cons.mp h with h | h
      · exact .inl h
      · exact .inr (List.mem_cons_of_mem _ h)
    · split at h
      · exact List.mem_cons.mp h
      · rcases List.mem_cons.mp h with h | h
        · exact .inr (h ▸ List.mem_cons_self)
        · exact (ih h).imp id (List.mem_cons_of_mem _)

/-- The keys of the new list are the new key and the old ones. -/
theorem mem_keys_insertKey {key k : String} {value : α} {bindings : List (String × α)} :
    k ∈ (insertKey key value bindings).map Prod.fst ↔ k = key ∨ k ∈ bindings.map Prod.fst := by
  induction bindings with
  | nil => simp [insertKey]
  | cons binding rest ih =>
    rw [insertKey]
    split
    · next heq => simp [heq]
    · split
      · simp
      · rw [List.map_cons, List.mem_cons, ih, List.map_cons, List.mem_cons, or_left_comm]

/-- A binding whose key is after all others goes to the end. -/
theorem insertKey_of_forall_before {key : String} {bindings : List (String × α)}
    (h : ∀ b ∈ bindings, keyBefore b.1 key = true) (value : α) :
    insertKey key value bindings = bindings ++ [(key, value)] := by
  induction bindings with
  | nil => rfl
  | cons binding rest ih =>
    have hlt : keyBefore binding.1 key = true := h binding List.mem_cons_self
    rw [insertKey, if_neg (ne_of_keyBefore hlt).symm, if_neg (keyBefore_asymm hlt),
      ih fun b hb ↦ h b (List.mem_cons_of_mem _ hb)]
    rfl

/-- **Insertion keeps the keys ascending.** -/
theorem Ascending.insertKey {bindings : List (String × α)} (h : Ascending bindings) (key : String)
    (value : α) : Ascending (insertKey key value bindings) := by
  induction bindings with
  | nil => exact List.pairwise_singleton _ _
  | cons binding rest ih =>
    obtain ⟨hhead, hrest⟩ := List.pairwise_cons.mp h
    simp only [TypeDiagram.insertKey]
    split
    · next heq => exact List.pairwise_cons.mpr ⟨fun b hb ↦ heq ▸ hhead b hb, hrest⟩
    · next hne =>
      split
      · next hlt =>
        refine List.pairwise_cons.mpr ⟨fun b hb ↦ ?_, h⟩
        rcases List.mem_cons.mp hb with rfl | hb
        · exact hlt
        · exact keyBefore_trans hlt (hhead b hb)
      · next hnlt =>
        refine List.pairwise_cons.mpr ⟨fun b hb ↦ ?_, ih hrest⟩
        rcases mem_insertKey_of_mem hb with rfl | hb
        · exact (keyBefore_total (Ne.symm hne)).resolve_right hnlt
        · exact hhead b hb

/-- **The last write wins**, and a write changes nothing for other keys. -/
theorem lookup_insertKey (key : String) (value : α) (bindings : List (String × α)) (k : String) :
    (insertKey key value bindings).lookup k =
      if k = key then some value else bindings.lookup k := by
  induction bindings with
  | nil =>
    by_cases hk : k = key
    · simp [insertKey, hk]
    · simp [insertKey, List.lookup_cons, beq_false_of_ne hk, hk]
  | cons binding rest ih =>
    obtain ⟨bkey, bvalue⟩ := binding
    rw [insertKey]
    split
    · next heq =>
      obtain rfl : key = bkey := heq
      by_cases hk : k = key
      · simp [hk]
      · simp [List.lookup_cons, beq_false_of_ne hk, hk]
    · next hne =>
      split
      · by_cases hk : k = key
        · simp [hk]
        · simp [List.lookup_cons, beq_false_of_ne hk, hk]
      · rw [List.lookup_cons, List.lookup_cons, ih]
        by_cases hk : k = key
        · simp [hk, beq_false_of_ne (show key ≠ bkey from hne)]
        · simp [hk]

theorem lookup_cons_eq_ite (key : String) (value : α) (bindings : List (String × α)) (k : String) :
    ((key, value) :: bindings).lookup k = if k = key then some value else bindings.lookup k := by
  rw [List.lookup_cons]
  by_cases hk : k = key
  · simp [hk]
  · simp [hk, beq_false_of_ne hk]

/-- A key is bound to nothing exactly when it is none of the keys. -/
theorem lookup_eq_none_iff_notMem {key : String} {bindings : List (String × α)} :
    bindings.lookup key = none ↔ key ∉ bindings.map Prod.fst := by
  rw [List.lookup_eq_none_iff]
  simp only [bne_iff_ne, List.mem_map, not_exists, not_and, ne_eq, @eq_comm String key]

theorem Ascending.nodup_keys {bindings : List (String × α)} (h : Ascending bindings) :
    (bindings.map Prod.fst).Nodup :=
  List.pairwise_map.mpr (h.imp ne_of_keyBefore)

/-- A list with ascending keys consists of what can be looked up in it. -/
theorem Ascending.mem_iff_lookup {bindings : List (String × α)} (h : Ascending bindings)
    {b : String × α} : b ∈ bindings ↔ bindings.lookup b.1 = some b.2 := by
  rw [List.lookup_eq_some_iff]
  refine ⟨fun hb ↦ ?_, ?_⟩
  · obtain ⟨before, after, rfl⟩ := List.append_of_mem hb
    refine ⟨before, after, rfl, fun p hp ↦ bne_iff_ne.mpr ?_⟩
    exact (ne_of_keyBefore ((List.pairwise_append.mp h).2.2 p hp b List.mem_cons_self)).symm
  · rintro ⟨before, after, rfl, -⟩
    exact List.mem_append_right _ List.mem_cons_self

/-- **What can be looked up determines the list**, if the keys ascend. -/
theorem Ascending.eq_of_lookup_eq {bindings bindings' : List (String × α)} (h : Ascending bindings)
    (h' : Ascending bindings') (hlookup : ∀ k, bindings.lookup k = bindings'.lookup k) :
    bindings = bindings' := by
  have hnodup : ∀ {l : List (String × α)}, Ascending l → l.Nodup := fun hl ↦
    hl.imp fun hlt heq ↦ ne_of_keyBefore hlt (congrArg Prod.fst heq)
  have hperm : bindings.Perm bindings' := by
    refine (List.perm_ext_iff_of_nodup (hnodup h) (hnodup h')).mpr fun b ↦ ?_
    rw [h.mem_iff_lookup, h'.mem_iff_lookup, hlookup]
  exact hperm.eq_of_pairwise (fun _ _ _ _ hab hba ↦ absurd hba (keyBefore_asymm hab)) h h'

/-- If no key stands twice, the first binding of a key is the last one. -/
theorem lookup_reverse {bindings : List (String × α)} (h : (bindings.map Prod.fst).Nodup)
    (key : String) : bindings.reverse.lookup key = bindings.lookup key := by
  induction bindings with
  | nil => rfl
  | cons binding rest ih =>
    obtain ⟨hbinding, hrest⟩ := List.nodup_cons.mp h
    rw [List.reverse_cons, List.lookup_append, ih hrest, lookup_cons_eq_ite, lookup_cons_eq_ite]
    by_cases hkey : key = binding.1
    · simp [hkey, lookup_eq_none_iff_notMem.mpr hbinding]
    · simp [hkey]

/-- A new binding is put between the others, which stay as they are. -/
theorem exists_insertKey_eq {key : String} {bindings : List (String × α)}
    (h : key ∉ bindings.map Prod.fst) (value : α) :
    ∃ before after, bindings = before ++ after ∧
      insertKey key value bindings = before ++ (key, value) :: after := by
  induction bindings with
  | nil => exact ⟨[], [], rfl, rfl⟩
  | cons binding rest ih =>
    rw [List.map_cons, List.mem_cons, not_or] at h
    rw [insertKey, if_neg h.1]
    split
    · exact ⟨[], binding :: rest, rfl, rfl⟩
    · obtain ⟨before, after, hrest, hinsert⟩ := ih h.2
      refine ⟨binding :: before, after, ?_, ?_⟩
      · rw [hrest, List.cons_append]
      · rw [hinsert, List.cons_append]

/-! ## Dictionaries -/

/-- Bindings of texts to values, in strictly ascending order of the texts. -/
structure Dictionary (α : Type) where
  /-- The bindings in order. -/
  bindings : List (String × α)
  /-- No key is bound twice, and the keys ascend. -/
  ascending : Ascending bindings
deriving DecidableEq

namespace Dictionary

/-- The dictionary that binds nothing. -/
def empty : Dictionary α := ⟨[], List.Pairwise.nil⟩

instance : Inhabited (Dictionary α) := ⟨empty⟩

/-- Bind a key.  What it was bound to before is forgotten. -/
def insert (d : Dictionary α) (key : String) (value : α) : Dictionary α :=
  ⟨insertKey key value d.bindings, d.ascending.insertKey key value⟩

/-- The value of a key, if it is bound. -/
def get? (d : Dictionary α) (key : String) : Option α := d.bindings.lookup key

/-- The dictionary that arises by binding the entries of a list one after the other. -/
def ofList (entries : List (String × α)) : Dictionary α :=
  entries.foldl (fun d entry ↦ d.insert entry.1 entry.2) empty

@[ext]
theorem ext {d e : Dictionary α} (h : d.bindings = e.bindings) : d = e := by
  cases d
  cases e
  cases h
  rfl

@[simp]
theorem bindings_insert (d : Dictionary α) (key : String) (value : α) :
    (d.insert key value).bindings = insertKey key value d.bindings := rfl

theorem get?_insert (d : Dictionary α) (key : String) (value : α) (k : String) :
    (d.insert key value).get? k = if k = key then some value else d.get? k :=
  lookup_insertKey key value d.bindings k

/-- **Dictionaries with the same values are equal.** -/
theorem ext_get? {d e : Dictionary α} (h : ∀ key, d.get? key = e.get? key) : d = e :=
  ext (d.ascending.eq_of_lookup_eq e.ascending h)

/-! ## Filling a dictionary from a list -/

/-- What is bound after filling was bound before or is in the list. -/
theorem mem_foldl_insert {entries : List (String × α)} {d : Dictionary α} {b : String × α}
    (h : b ∈ (entries.foldl (fun d entry ↦ d.insert entry.1 entry.2) d).bindings) :
    b ∈ d.bindings ∨ b ∈ entries := by
  induction entries generalizing d with
  | nil => exact .inl h
  | cons entry rest ih =>
    rcases ih h with h | h
    · rcases mem_insertKey_of_mem h with h | h
      · exact .inr (h ▸ List.mem_cons_self)
      · exact .inl h
    · exact .inr (List.mem_cons_of_mem _ h)

/-- The keys after filling are the keys before and those of the list. -/
theorem mem_keys_foldl_insert {entries : List (String × α)} {d : Dictionary α} {key : String} :
    key ∈ (entries.foldl (fun d entry ↦ d.insert entry.1 entry.2) d).bindings.map Prod.fst ↔
      key ∈ d.bindings.map Prod.fst ∨ key ∈ entries.map Prod.fst := by
  induction entries generalizing d with
  | nil => simp
  | cons entry rest ih =>
    rw [List.foldl_cons, ih, bindings_insert, mem_keys_insertKey, List.map_cons, List.mem_cons,
      or_assoc, or_left_comm]

/-- Entries whose keys ascend, and are after the keys so far, are appended. -/
theorem bindings_foldl_insert {entries : List (String × α)} {d : Dictionary α}
    (h : Ascending (d.bindings ++ entries)) :
    (entries.foldl (fun d entry ↦ d.insert entry.1 entry.2) d).bindings =
      d.bindings ++ entries := by
  induction entries generalizing d with
  | nil => simp
  | cons entry rest ih =>
    have hlast : (d.insert entry.1 entry.2).bindings = d.bindings ++ [entry] := by
      refine insertKey_of_forall_before (fun b hb ↦ ?_) entry.2
      exact (List.pairwise_append.mp h).2.2 b hb entry List.mem_cons_self
    have hrest : Ascending ((d.insert entry.1 entry.2).bindings ++ rest) := by
      rw [hlast, ← List.append_cons]
      exact h
    rw [List.foldl_cons, ih hrest, hlast, ← List.append_cons]

theorem mem_of_mem_ofList {entries : List (String × α)} {b : String × α}
    (h : b ∈ (ofList entries).bindings) : b ∈ entries :=
  (mem_foldl_insert h).resolve_left List.not_mem_nil

theorem mem_keys_ofList {entries : List (String × α)} {key : String} :
    key ∈ (ofList entries).bindings.map Prod.fst ↔ key ∈ entries.map Prod.fst :=
  mem_keys_foldl_insert.trans (or_iff_right List.not_mem_nil)

/-- **The last entry wins**: filling binds the keys of the list to what the list binds them to last,
and leaves the other keys. -/
theorem get?_foldl_insert (entries : List (String × α)) (d : Dictionary α) (key : String) :
    (entries.foldl (fun d entry ↦ d.insert entry.1 entry.2) d).get? key =
      (entries.reverse.lookup key).or (d.get? key) := by
  induction entries generalizing d with
  | nil => rfl
  | cons entry rest ih =>
    rw [List.foldl_cons, ih, get?_insert, List.reverse_cons, List.lookup_append, Option.or_assoc,
      lookup_cons_eq_ite]
    by_cases hkey : key = entry.1
    · simp [hkey]
    · simp [hkey]

theorem get?_ofList {entries : List (String × α)} (h : (entries.map Prod.fst).Nodup)
    (key : String) : (ofList entries).get? key = entries.lookup key := by
  rw [ofList, get?_foldl_insert, lookup_reverse h]
  exact Option.or_none

/-- A dictionary is what its own bindings fill. -/
theorem ofList_bindings (d : Dictionary α) : ofList d.bindings = d :=
  ext (bindings_foldl_insert (d := empty) d.ascending)

end Dictionary
end TypeDiagram
