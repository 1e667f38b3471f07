import Mathlib.Tactic

/-!
Hash tables whose buckets are chains, and search in them.

* `insert`, `table`: elements are appended to the chain of their key, unless the chain holds
  the key in front of its last element.
* `find?_table`: what is found in a bucket by a test on keys is what is found among all
  elements of the bucket, in the order in which they were inserted.
* `find?_filter_eq_iff`: a search among some elements agrees with the search among all of them
  exactly when it does not miss the first hit.
* `Distinct`: no key stands in the table twice; `distinct_insert_iff`: when an insertion keeps
  it so.
* `insertNew`: the insertion that compares the whole chain. `Distinct.insertNew`: it always keeps
  the keys distinct, and `FirstWins.insertNew`: the table stands for a map in which the first
  insertion of a key wins.
-/

namespace Buckets

variable {α κ ι : Type*} [BEq κ] [LawfulBEq κ] [DecidableEq ι]

/-- Inserting an element. -/
def insert (key : α → κ) (hash : κ → ι) (t : ι → List α) (a : α) : ι → List α :=
  if (t (hash (key a))).dropLast.any (fun old => key old == key a) then t
  else fun h => if h = hash (key a) then t h ++ [a] else t h

/-- The table after a sequence of insertions. -/
def table (key : α → κ) (hash : κ → ι) (as : List α) : ι → List α :=
  as.foldl (insert key hash) fun _ => []

variable {key : α → κ} {hash : κ → ι}

/-- An element whose key is there already is never found, appended or not. -/
lemma find?_append_known (t : ι → List α) (a : α) (h : ι) (p : κ → Bool)
    (hold : (t (hash (key a))).any fun old => key old == key a) :
    (t h).find? (fun b => p (key b))
      = (t h ++ if hash (key a) = h then [a] else []).find? fun b => p (key b) := by
  split_ifs with hh
  · -- a hit for the element would be a hit for the one with its key
    subst hh
    rw [List.find?_append]
    cases hfind : (t (hash (key a))).find? fun b => p (key b) with
    | some b => rfl
    | none =>
        obtain ⟨old, hmem, heq⟩ := List.any_eq_true.mp hold
        have hmiss := List.find?_eq_none.mp hfind old hmem
        rw [eq_of_beq heq] at hmiss
        simp [hmiss]
  · rw [List.append_nil]

omit [BEq κ] [LawfulBEq κ] in
/-- The chain of a bucket when an element has been appended to its own. -/
lemma append_apply (t : ι → List α) (a : α) (h : ι) :
    (if h = hash (key a) then t h ++ [a] else t h)
      = t h ++ if hash (key a) = h then [a] else [] := by
  by_cases hh : h = hash (key a)
  · rw [if_pos hh, if_pos hh.symm]
  · rw [if_neg hh, if_neg (Ne.symm hh), List.append_nil]

lemma find?_insert (t : ι → List α) (a : α) (h : ι) (p : κ → Bool) :
    (insert key hash t a h).find? (fun b => p (key b))
      = (t h ++ if hash (key a) = h then [a] else []).find? fun b => p (key b) := by
  rw [insert]
  by_cases hold : (t (hash (key a))).dropLast.any (fun old => key old == key a) = true
  · rw [if_pos hold]
    refine find?_append_known t a h p ?_
    obtain ⟨old, hmem, heq⟩ := List.any_eq_true.mp hold
    exact List.any_eq_true.mpr ⟨old, List.mem_of_mem_dropLast hmem, heq⟩
  · rw [if_neg hold]
    exact congrArg (List.find? fun b => p (key b)) (append_apply t a h)

/-- **Search in a bucket.** -/
lemma find?_table (as : List α) (h : ι) (p : κ → Bool) :
    (table key hash as h).find? (fun b => p (key b))
      = (as.filter fun a => hash (key a) = h).find? fun b => p (key b) := by
  induction as using List.reverseRecOn with
  | nil => rfl
  | append_singleton as a ih =>
      have hlast : (table key hash (as ++ [a])) = insert key hash (table key hash as) a := by
        rw [table, List.foldl_append]
        rfl
      rw [hlast, find?_insert, List.find?_append, ih, List.filter_append, List.find?_append]
      congr 1
      by_cases hh : hash (key a) = h <;> simp [hh]

omit [BEq κ] [LawfulBEq κ] [DecidableEq ι] in
/-- A search among some elements finds the first hit exactly if that is among them. -/
lemma find?_filter_eq_iff (as : List α) (q p : α → Bool) :
    (as.filter q).find? p = as.find? p ↔ ∀ a, as.find? p = some a → q a = true := by
  induction as with
  | nil => simp
  | cons b as ih =>
      by_cases hp : p b = true
      · rw [List.find?_cons_of_pos hp]
        constructor
        · intro heq a ha
          rw [← heq] at ha
          exact (List.mem_filter.mp (List.mem_of_find?_eq_some ha)).2
        · intro hq
          rw [List.filter_cons_of_pos (hq b rfl), List.find?_cons_of_pos hp]
      · rw [List.find?_cons_of_neg hp, ← ih]
        by_cases hq : q b = true
        · rw [List.filter_cons_of_pos hq, List.find?_cons_of_neg hp]
        · rw [List.filter_cons_of_neg hq]

/-! ### Keys that stand in the table once -/

/-- Every element is in the bucket of its key, and no chain has a key twice. -/
structure Distinct (key : α → κ) (hash : κ → ι) (t : ι → List α) : Prop where
  bucket : ∀ h, ∀ a ∈ t h, hash (key a) = h
  nodup : ∀ h, ((t h).map key).Nodup

omit [BEq κ] [LawfulBEq κ] [DecidableEq ι] in
lemma distinct_empty (key : α → κ) (hash : κ → ι) : Distinct key hash fun _ => [] :=
  ⟨fun _ _ ha => absurd ha List.not_mem_nil, fun _ => List.nodup_nil⟩

omit [BEq κ] [LawfulBEq κ] [DecidableEq ι] in
/-- Two places of the table with one key are the same place. -/
lemma Distinct.place {t : ι → List α} (ht : Distinct key hash t) {h h' : ι} {i j : ℕ} {a b : α}
    (ha : (t h)[i]? = some a) (hb : (t h')[j]? = some b) (hkey : key a = key b) :
    h = h' ∧ i = j := by
  have hh : h = h' := by
    rw [← ht.bucket h a (List.mem_of_getElem? ha), hkey,
      ht.bucket h' b (List.mem_of_getElem? hb)]
  subst hh
  obtain ⟨hi, -⟩ := List.getElem?_eq_some_iff.mp ha
  refine ⟨rfl, (List.getElem?_inj (by rwa [List.length_map]) (ht.nodup h)).mp ?_⟩
  rw [List.getElem?_map, List.getElem?_map, ha, hb, Option.map_some, Option.map_some, hkey]

omit [BEq κ] [LawfulBEq κ] in
/-- An element that is appended keeps the keys distinct exactly if its key is new. -/
lemma distinct_append_iff {t : ι → List α} (hbucket : ∀ h, ∀ a ∈ t h, hash (key a) = h) (a : α) :
    Distinct key hash (fun h => if h = hash (key a) then t h ++ [a] else t h) ↔
      Distinct key hash t ∧ ∀ old ∈ t (hash (key a)), key old ≠ key a := by
  have hchain (h : ι) : ((if h = hash (key a) then t h ++ [a] else t h).map key).Nodup ↔
      ((t h).map key).Nodup ∧ (h = hash (key a) → ∀ old ∈ t h, key old ≠ key a) := by
    split_ifs with hh
    · rw [List.map_append, List.nodup_append]
      simp [hh]
    · simp [hh]
  constructor
  · intro hnew
    have hboth := fun h => (hchain h).mp (hnew.nodup h)
    exact ⟨⟨hbucket, fun h => (hboth h).1⟩, (hboth _).2 rfl⟩
  · rintro ⟨ht, hfresh⟩
    refine ⟨fun h b hb => ?_, fun h => (hchain h).mpr ⟨ht.nodup h, ?_⟩⟩
    · split_ifs at hb with hh
      · rcases List.mem_append.mp hb with hb | hb
        · exact ht.bucket h b hb
        · rw [List.mem_singleton.mp hb, hh]
      · exact ht.bucket h b hb
    · rintro rfl
      exact hfresh

/-- An insertion keeps the keys distinct exactly if its key is not the last one of its chain. -/
lemma distinct_insert_iff {t : ι → List α} (hbucket : ∀ h, ∀ a ∈ t h, hash (key a) = h) (a : α) :
    Distinct key hash (insert key hash t a) ↔
      Distinct key hash t ∧ (t (hash (key a))).getLast?.map key ≠ some (key a) := by
  rw [insert]
  generalize hchain : t (hash (key a)) = chain
  split_ifs with hold
  · refine (and_iff_left_of_imp fun ht => ?_).symm
    -- the key is in front of the last element, and so it is not that of the last element
    obtain ⟨old, hmem, heq⟩ := List.any_eq_true.mp hold
    rintro hlast
    obtain ⟨last, hlast, hkey⟩ := Option.map_eq_some_iff.mp hlast
    have hsplit := List.dropLast_append_getLast? last hlast
    have hnodup := ht.nodup (hash (key a))
    rw [hchain, ← hsplit, List.map_append, List.nodup_append] at hnodup
    exact hnodup.2.2 (key old) (List.mem_map_of_mem hmem) (key last)
      (List.mem_singleton.mpr rfl) ((eq_of_beq heq).trans hkey.symm)
  · rw [distinct_append_iff hbucket, hchain]
    refine and_congr_right fun _ => ?_
    have hfront : ∀ old ∈ chain.dropLast, key old ≠ key a := fun old hmem heq =>
      hold (List.any_eq_true.mpr ⟨old, hmem, beq_iff_eq.mpr heq⟩)
    rcases List.eq_nil_or_concat chain with rfl | ⟨front, last, rfl⟩
    · simp
    · rw [List.concat_eq_append, List.dropLast_concat] at hfront
      rw [List.concat_eq_append, List.getLast?_concat, Option.map_some, ne_eq, Option.some.injEq]
      constructor
      · exact fun h => h last (by simp)
      · intro hlast old hmem
        rcases List.mem_append.mp hmem with hmem | hmem
        · exact hfront old hmem
        · rw [List.mem_singleton.mp hmem]
          exact hlast

/-- An insertion changes nothing if the chain holds the key, except behind its last element. -/
lemma insert_known {t : ι → List α} {a : α}
    (hold : ∃ old ∈ t (hash (key a)), key old = key a)
    (hlast : (t (hash (key a))).getLast?.map key ≠ some (key a)) : insert key hash t a = t := by
  obtain ⟨old, hmem, heq⟩ := hold
  have hfront (hmem : old ∈ (t (hash (key a))).dropLast) : insert key hash t a = t := by
    have hany : (t (hash (key a))).dropLast.any (fun old => key old == key a) = true :=
      List.any_eq_true.mpr ⟨old, hmem, beq_iff_eq.mpr heq⟩
    rw [insert, if_pos hany]
  apply hfront
  rcases List.eq_nil_or_concat (t (hash (key a))) with hnil | ⟨front, last, hchain⟩
  · rw [hnil] at hmem
    cases hmem
  · rw [hchain, List.concat_eq_append] at hmem hlast ⊢
    rw [List.dropLast_concat]
    rcases List.mem_append.mp hmem with hmem | hmem
    · exact hmem
    · rw [List.getLast?_concat, Option.map_some, ← List.mem_singleton.mp hmem, heq] at hlast
      exact absurd rfl hlast

omit [LawfulBEq κ] in
/-- The elements stay in the buckets of their keys. -/
lemma bucket_insert {t : ι → List α} (hbucket : ∀ h, ∀ a ∈ t h, hash (key a) = h) (a : α) :
    ∀ h, ∀ b ∈ insert key hash t a h, hash (key b) = h := by
  intro h b hb
  rw [insert] at hb
  split_ifs at hb with hold
  · exact hbucket h b hb
  · dsimp only at hb
    rw [append_apply] at hb
    rcases List.mem_append.mp hb with hb | hb
    · exact hbucket h b hb
    · split_ifs at hb with hh
      · rw [List.mem_singleton.mp hb, hh]
      · cases hb

/-! ### Insertions that compare the whole chain -/

/-- Inserting an element whose key is new. -/
def insertNew (key : α → κ) (hash : κ → ι) (t : ι → List α) (a : α) : ι → List α :=
  if (t (hash (key a))).any (fun old => key old == key a) then t
  else fun h => if h = hash (key a) then t h ++ [a] else t h

/-- The keys stay distinct. -/
lemma Distinct.insertNew {t : ι → List α} (ht : Distinct key hash t) (a : α) :
    Distinct key hash (insertNew key hash t a) := by
  rw [Buckets.insertNew]
  split_ifs with hold
  · exact ht
  · refine (distinct_append_iff ht.bucket a).mpr ⟨ht, fun old hmem heq => hold ?_⟩
    exact List.any_eq_true.mpr ⟨old, hmem, beq_iff_eq.mpr heq⟩

/-- What is found in a bucket of the table is what is found among the elements of the bucket that
have been inserted so far. -/
def FirstWins (key : α → κ) (hash : κ → ι) (t : ι → List α) (as : List α) : Prop :=
  ∀ (h : ι) (p : κ → Bool), (t h).find? (fun b => p (key b))
    = (as.filter fun a => hash (key a) = h).find? fun b => p (key b)

omit [BEq κ] [LawfulBEq κ] in
lemma firstWins_empty (key : α → κ) (hash : κ → ι) : FirstWins key hash (fun _ => []) [] :=
  fun _ _ => rfl

/-- **The first insertion of a key wins.** -/
lemma FirstWins.insertNew {t : ι → List α} {as : List α} (ht : FirstWins key hash t as) (a : α) :
    FirstWins key hash (insertNew key hash t a) (as ++ [a]) := by
  intro h p
  have hone : [a].filter (fun a => hash (key a) = h) = if hash (key a) = h then [a] else [] := by
    by_cases hh : hash (key a) = h <;> simp [hh]
  rw [List.filter_append, hone, List.find?_append, ← ht h p, ← List.find?_append,
    Buckets.insertNew]
  by_cases hold : (t (hash (key a))).any (fun old => key old == key a) = true
  · rw [if_pos hold]
    exact find?_append_known t a h p hold
  · rw [if_neg hold]
    exact congrArg (List.find? fun b => p (key b)) (append_apply t a h)

/-- The element that is found for a key. -/
lemma FirstWins.find? {t : ι → List α} {as : List α} (ht : FirstWins key hash t as) (k : κ) :
    (t (hash k)).find? (fun b => key b == k) = as.find? fun b => key b == k := by
  refine (ht (hash k) (· == k)).trans ((find?_filter_eq_iff as _ _).mpr fun a ha => ?_)
  have hkey := List.find?_some ha
  rw [decide_eq_true_eq, eq_of_beq hkey]

end Buckets
