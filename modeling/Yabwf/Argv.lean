import Yabwf.Lib.CString
import Yabwf.Containment
import Yabwf.Escapes
import Yabwf.Cgi

/-!
The arguments of a script: `create_argv` splits and decodes an index-style query string in place.

* `createArgv`: the array that the function fills, and its copy of the query string.
* `searchWords`, `queryArgs`: the words of a search string, and the arguments they stand for.
* `createArgv_passes`: what the loop makes of the words, each decoded where it stands.
* `createArgv_exact_iff`: the arguments are the decoded words, unless the loop looks at a word that
  holds a `?` or a `#`, or an escape without two hexadecimal digits, and does not refuse it.
-/

namespace Yabwf

open Memory

/-! ### `create_argv` -/

/-- `CGI_ARGC_MAX`. -/
def cgiArgcMax : ℕ := 128

/-- An entry of `aargv`: not written, the pathname, a word of the copy, or `NULL`. -/
inductive ArgEntry
  | unset
  | pathname
  | word (r : ℕ)
  | null
  deriving DecidableEq

/-- The variables of `create_argv`: the copy of the query string, which `q` points into, and the
array with the number of its entries. -/
structure Argv where
  copy : Mem
  q : Option ℕ := none
  aargv : ℕ → ArgEntry
  aargc : ℕ := 1

/-- `unescape_uri(r, NULL)` in the copy. -/
def unescapeWord (copy : Mem) (size r : ℕ) : Bool × Mem :=
  let u := unescapeUri (copy.cstr r size) false
  (u.1, copy.store r (u.2.1 ++ [0]))

/-- The word at `r` is cut off at the next `+`, and `q` goes behind it. -/
def cutWord (copy : Mem) (size r : ℕ) : Mem × Option ℕ :=
  match strchr 43 (copy.cstr r size) with
  | some p => (copy.store (r + p) [0], some (r + p + 1))
  | none => (copy, none)

/-- One round of the loop, for the word at `r`. -/
def argvRound (size r : ℕ) (s : Argv) : Argv :=
  let cut := cutWord s.copy size r
  let decoded := unescapeWord cut.1 size r
  if decoded.1 then
    { copy := decoded.2, q := cut.2, aargc := s.aargc + 1
      aargv := Function.update s.aargv s.aargc (.word r) }
  else { s with copy := decoded.2, q := cut.2 }

/-- The loop of `create_argv`, for at most as many rounds as there can be words. -/
def argvLoop (size : ℕ) : ℕ → Argv → Argv
  | 0, s => s
  | n + 1, s =>
      match s.q with
      | none => s
      | some r => if s.aargc < cgiArgcMax then argvLoop size n (argvRound size r s) else s

/-- `create_argv`; `heap` is the memory that `strdup` copies the query string to. -/
def createArgv (heap : Mem) (r : Request) : Argv :=
  let aargv := Function.update (fun _ => .unset) 0 .pathname
  match r.queryString with
  | none => { copy := heap, aargv := Function.update aargv 1 .null }
  | some q =>
      if (strchr 61 q).isSome then { copy := heap, aargv := Function.update aargv 1 .null }
      else
        let size := q.length + 1
        let s := argvLoop size size { copy := heap.store 0 (q ++ [0]), q := some 0, aargv := aargv }
        { s with aargv := Function.update s.aargv s.aargc .null }

/-! ### The words of a search string -/

/-- Words with a separator behind each, and where they begin. -/
def wordsFrom : ℕ → List Bytes → List (ℕ × Bytes)
  | _, [] => []
  | off, w :: ws => (off, w) :: wordsFrom (off + w.length + 1) ws

/-- The words of a search string. -/
def searchWords (q : Bytes) : List (ℕ × Bytes) := wordsFrom 0 (q.splitOn 43)

open Classical in
/-- A word that can be decoded, with its complete decoding. -/
noncomputable def decodeWord (w : ℕ × Bytes) : Option (ℕ × Bytes) :=
  if WellEscaped w.2 then some (w.1, percentDecode w.2) else none

/-- The arguments that a query string stands for. -/
noncomputable def queryArgs : Option Bytes → List (ℕ × Bytes)
  | none => []
  | some q =>
      if 61 ∈ q then [] else ((searchWords q).filterMap decodeWord).take (cgiArgcMax - 1)

/-- The arguments are `args`, in order, each with its text, and `NULL` follows; nothing else is
written, and nothing outside of the array. -/
structure Argv.Passes (s : Argv) (args : List (ℕ × Bytes)) : Prop where
  pathname : s.aargv 0 = .pathname
  word : ∀ i (hi : i < args.length), s.aargv (i + 1) = .word args[i].1
  text : ∀ i (hi : i < args.length), s.copy.HasStr args[i].1 args[i].2
  null : s.aargv (args.length + 1) = .null
  inside : args.length + 1 ≤ cgiArgcMax
  rest : ∀ i, args.length + 1 < i → s.aargv i = .unset

/-! ### What the loop does -/

/-- What `unescape_uri` makes of a word. -/
def unescapedWord (w : ℕ × Bytes) : Option (ℕ × Bytes) :=
  if (unescapeUri w.2 false).1 then some (w.1, (unescapeUri w.2 false).2.1) else none

lemma length_unescapeLoop_le (q : Bool) (s : Bytes) : (unescapeLoop q s).2.1.length ≤ s.length := by
  fun_induction unescapeLoop q s with
  | case1 => exact le_rfl
  | case2 => exact Nat.zero_le _
  | case3 c d s b hb r ih =>
      simp only [List.length_cons]
      exact Nat.succ_le_succ (ih.trans (by omega))
  | case4 => exact Nat.zero_le _
  | case5 => exact Nat.zero_le _
  | case6 => exact Nat.zero_le _
  | case7 b s _ _ _ _ r ih => exact Nat.succ_le_succ ih

/-- A word is decoded where it stands. -/
lemma unescapeWord_eq {copy : Mem} {size r : ℕ} {w : Bytes} (hw : copy.HasStr r w)
    (hsize : w.length < size) :
    (unescapeWord copy size r).1 = (unescapeUri w false).1 ∧
      (unescapeWord copy size r).2.HasStr r (unescapeUri w false).2.1 ∧
      ∀ i, i < r ∨ r + w.length < i → (unescapeWord copy size r).2 i = copy i := by
  rw [unescapeWord, hw.cstr_eq hsize]
  refine ⟨rfl, Mem.HasStr.of_store (zero_notMem_unescapeLoop false w hw.1), ?_⟩
  have hle := length_unescapeLoop_le false w
  rintro i (hi | hi)
  · exact Mem.store_of_lt copy _ hi
  · refine Mem.store_of_le copy _ ?_
    rw [List.length_append, List.length_singleton, unescapeUri]
    omega

/-- From `s` to `t` the arguments `args` are added, and the copy is changed from `r` on. -/
structure Argv.Adds (s t : Argv) (r : ℕ) (args : List (ℕ × Bytes)) : Prop where
  aargc : t.aargc = s.aargc + args.length
  word : ∀ i (hi : i < args.length), t.aargv (s.aargc + i) = .word args[i].1
  text : ∀ i (hi : i < args.length), t.copy.HasStr args[i].1 args[i].2
  rest : ∀ i, i < s.aargc ∨ t.aargc ≤ i → t.aargv i = s.aargv i
  front : ∀ i < r, t.copy i = s.copy i

lemma Argv.Adds.refl (s : Argv) (r : ℕ) : s.Adds s r [] where
  aargc := rfl
  word i hi := absurd hi (Nat.not_lt_zero i)
  text i hi := absurd hi (Nat.not_lt_zero i)
  rest _ _ := rfl
  front _ _ := rfl

/-- What is added later stands behind the texts of the earlier arguments. -/
lemma Argv.Adds.trans {s t v : Argv} {r r' : ℕ} {args args' : List (ℕ × Bytes)}
    (h : s.Adds t r args) (h' : t.Adds v r' args') (hle : r ≤ r')
    (hbelow : ∀ a ∈ args, a.1 + a.2.length < r') : s.Adds v r (args ++ args') where
  aargc := by
    rw [h'.aargc, h.aargc, List.length_append, Nat.add_assoc]
  word i hi := by
    have hc := h.aargc
    rcases Nat.lt_or_ge i args.length with hlt | hge
    · rw [h'.rest _ (Or.inl (by omega)), h.word i hlt, List.getElem_append_left hlt]
    · have hi' : i - args.length < args'.length := by
        rw [List.length_append] at hi
        omega
      have hword := h'.word _ hi'
      rw [hc, Nat.add_assoc, Nat.add_sub_cancel' hge] at hword
      rw [hword, List.getElem_append_right hge]
  text i hi := by
    rcases Nat.lt_or_ge i args.length with hlt | hge
    · rw [List.getElem_append_left hlt]
      have hend := hbelow _ (List.getElem_mem hlt)
      exact (h.text i hlt).congr_of_le fun j _ hj => h'.front j (by omega)
    · rw [List.getElem_append_right hge]
      exact h'.text _ _
  rest i hi := by
    have hc := h.aargc
    have hc' := h'.aargc
    rw [h'.rest i (by omega), h.rest i (by omega)]
  front i hi := by
    rw [h'.front i (by omega), h.front i hi]

/-- A round adds the word `w` that it cuts off, if it can be decoded. -/
lemma argvRound_adds {s : Argv} {size r : ℕ} {w : Bytes}
    (hw : (cutWord s.copy size r).1.HasStr r w) (hsize : w.length < size)
    (hfront : ∀ i < r, (cutWord s.copy size r).1 i = s.copy i) :
    s.Adds (argvRound size r s) r (unescapedWord (r, w)).toList ∧
      (argvRound size r s).q = (cutWord s.copy size r).2 ∧
      ∀ i, r + w.length < i → (argvRound size r s).copy i = (cutWord s.copy size r).1 i := by
  obtain ⟨hret, htext, hrest⟩ := unescapeWord_eq hw hsize
  have hfront' : ∀ i < r, (unescapeWord (cutWord s.copy size r).1 size r).2 i = s.copy i :=
    fun i hi => (hrest i (Or.inl hi)).trans (hfront i hi)
  by_cases hok : (unescapeUri w false).1 = true
  · rw [argvRound, if_pos (hret.trans hok), unescapedWord, if_pos hok]
    refine ⟨⟨rfl, ?_, ?_, ?_, hfront'⟩, rfl, fun i hi => hrest i (Or.inr hi)⟩
    · intro i hi
      obtain rfl : i = 0 := Nat.lt_one_iff.mp hi
      exact Function.update_self ..
    · intro i hi
      obtain rfl : i = 0 := Nat.lt_one_iff.mp hi
      exact htext
    · rintro i hi
      exact Function.update_of_ne (by simp only at hi; omega) _ _
  · rw [argvRound, if_neg fun h => hok (hret.symm.trans h), unescapedWord, if_neg hok]
    refine ⟨?_, rfl, fun i hi => hrest i (Or.inr hi)⟩
    exact ⟨rfl, fun i hi => absurd hi (Nat.not_lt_zero i),
      fun i hi => absurd hi (Nat.not_lt_zero i), fun _ _ => rfl, hfront'⟩

lemma unescapedWord_below {w a : ℕ × Bytes} (h : a ∈ (unescapedWord w).toList) :
    a.1 + a.2.length ≤ w.1 + w.2.length := by
  rw [unescapedWord] at h
  split_ifs at h
  · rw [Option.toList_some, List.mem_singleton] at h
    subst h
    exact Nat.add_le_add_left (length_unescapeLoop_le false w.2) w.1
  · cases h

lemma take_filterMap_cons {α β : Type*} (f : α → Option β) (a : α) (l : List α) {n : ℕ}
    (hn : 0 < n) : ((a :: l).filterMap f).take n =
      (f a).toList ++ (l.filterMap f).take (n - (f a).toList.length) := by
  cases hf : f a with
  | none => simp [List.filterMap_cons_none hf]
  | some b =>
      rw [List.filterMap_cons_some hf]
      obtain ⟨k, rfl⟩ := Nat.exists_eq_add_of_lt hn
      simp

/-- **The loop** adds the words from `r` on, as long as there is room for them. -/
lemma argvLoop_adds {size n r : ℕ} {s : Argv} {u : Bytes} (hq : s.q = some r)
    (hu : s.copy.HasStr r u) (hn : u.length < n) (hsize : u.length < size) :
    s.Adds (argvLoop size n s) r
      (((wordsFrom r (u.splitOn 43)).filterMap unescapedWord).take (cgiArgcMax - s.aargc)) := by
  induction n generalizing r s u with
  | zero => exact absurd hn (Nat.not_lt_zero _)
  | succ n ih =>
      simp only [argvLoop, hq]
      by_cases hroom : s.aargc < cgiArgcMax
      · rw [if_pos hroom]
        have hcut : cutWord s.copy size r =
            match strchr 43 u with
            | some p => (s.copy.store (r + p) [0], some (r + p + 1))
            | none => (s.copy, none) := by
          rw [cutWord, hu.cstr_eq hsize]
        cases hp : strchr 43 u with
        | none =>
            rw [hp] at hcut
            obtain ⟨hadds, hend, -⟩ := argvRound_adds (s := s) (w := u) (by rwa [hcut]) hsize
              fun i _ => by rw [hcut]
            have hsplit : u.splitOn 43 = [u] := List.splitOn_eq_singleton (strchr_eq_none hp)
            rw [hcut] at hend
            have hlast : argvLoop size n (argvRound size r s) = argvRound size r s := by
              cases n with
              | zero => rfl
              | succ n => simp only [argvLoop, hend]
            rw [hlast, hsplit, wordsFrom, take_filterMap_cons _ _ _ (Nat.sub_pos_of_lt hroom)]
            simpa [wordsFrom] using hadds
        | some p =>
            obtain ⟨hlt, hplus, hu'⟩ := strchr_eq_some hp
            rw [hp] at hcut
            have hlen : (u.take p).length = p := List.length_take_of_le hlt.le
            obtain ⟨hadds, hend, hbehind⟩ := argvRound_adds (s := s) (w := u.take p)
              (by rw [hcut]; exact hu.cut hlt.le) (by omega)
              fun i hi => by rw [hcut]; exact Mem.store_of_lt _ _ (by omega)
            rw [hcut] at hend hbehind
            have hnext : (argvRound size r s).copy.HasStr (r + (p + 1)) (u.drop (p + 1)) := by
              refine (hu.drop hlt).congr fun i hi => ?_
              rw [hbehind i (by omega)]
              exact Mem.store_of_le _ _ (by simp only [List.length_singleton]; omega)
            have hdrop : (u.drop (p + 1)).length = u.length - (p + 1) := List.length_drop
            have hsplit : u.splitOn 43 = u.take p :: (u.drop (p + 1)).splitOn 43 := by
              conv_lhs => rw [hu']
              exact List.splitOn_append_cons_self_of_not_mem hplus _
            have hwords : wordsFrom r (u.splitOn 43) =
                (r, u.take p) :: wordsFrom (r + (p + 1)) ((u.drop (p + 1)).splitOn 43) := by
              rw [hsplit, wordsFrom, hlen, Nat.add_assoc]
            have hloop := ih hend hnext (by omega) (by omega)
            rw [hadds.aargc, ← Nat.sub_sub] at hloop
            rw [hwords, take_filterMap_cons _ _ _ (Nat.sub_pos_of_lt hroom)]
            refine hadds.trans hloop (by omega) fun a ha => ?_
            have hbelow := unescapedWord_below ha
            simp only [hlen] at hbelow
            omega
      · rw [if_neg hroom, Nat.sub_eq_zero_of_le (not_lt.mp hroom), List.take_zero]
        exact Argv.Adds.refl s r

/-- The arguments that `create_argv` finds. -/
def foundArgs : Option Bytes → List (ℕ × Bytes)
  | none => []
  | some q =>
      if 61 ∈ q then [] else ((searchWords q).filterMap unescapedWord).take (cgiArgcMax - 1)

/-- **`create_argv`** passes what it finds. -/
lemma createArgv_passes (heap : Mem) {r : Request} (hz : ∀ q ∈ r.queryString, 0 ∉ q) :
    (createArgv heap r).Passes (foundArgs r.queryString) := by
  have hnone (copy : Mem) : Argv.Passes
      ⟨copy, none, Function.update (Function.update (fun _ => .unset) 0 .pathname) 1 .null, 1⟩
      [] := by
    refine ⟨rfl, fun i hi => absurd hi (Nat.not_lt_zero i),
      fun i hi => absurd hi (Nat.not_lt_zero i), rfl, by decide, fun i hi => ?_⟩
    rw [List.length_nil] at hi
    simp only
    rw [Function.update_of_ne (by omega), Function.update_of_ne (by omega)]
  rw [createArgv]
  cases hq : r.queryString with
  | none => exact hnone heap
  | some q =>
      simp only [foundArgs, strchr_isSome]
      by_cases heq : 61 ∈ q
      · rw [if_pos heq, if_pos heq]
        exact hnone heap
      · rw [if_neg heq, if_neg heq]
        have hadds := argvLoop_adds (n := q.length + 1) (r := 0)
          (s := { copy := heap.store 0 (q ++ [0]), q := some 0,
                  aargv := Function.update (fun _ => .unset) 0 .pathname })
          rfl (Mem.HasStr.of_store (hz q hq)) (Nat.lt_add_one q.length) (Nat.lt_add_one q.length)
        rw [← searchWords] at hadds
        simp only at hadds
        generalize argvLoop _ _ _ = t at hadds ⊢
        generalize hargs : List.take _ _ = args at hadds ⊢
        have hlen : args.length ≤ cgiArgcMax - 1 := hargs ▸ List.length_take_le _ _
        have haargc : t.aargc = args.length + 1 := hadds.aargc.trans (Nat.add_comm _ _)
        refine ⟨?_, fun i hi => ?_, hadds.text, ?_, ?_, fun i hi => ?_⟩
        · simp only
          rw [Function.update_of_ne (by omega), hadds.rest 0 (Or.inl Nat.zero_lt_one)]
          rfl
        · simp only
          rw [Function.update_of_ne (by omega), ← hadds.word i hi, Nat.add_comm]
        · simp only
          rw [← haargc, Function.update_self]
        · exact Nat.add_le_of_le_sub (by decide) hlen
        · simp only
          rw [Function.update_of_ne (by omega), hadds.rest i (Or.inr (by omega))]
          have hne : i ≠ 0 := by omega
          simp only
          rw [Function.update_of_ne hne]

lemma hasStr_unique {m : Mem} {off : ℕ} {s s' : Bytes} (h : m.HasStr off s)
    (h' : m.HasStr off s') : s = s' := by
  have hs : m.cstr off (s.length + s'.length + 1) = s := h.cstr_eq (by omega)
  have hs' : m.cstr off (s.length + s'.length + 1) = s' := h'.cstr_eq (by omega)
  exact hs.symm.trans hs'

/-- The array says which arguments are passed. -/
lemma Argv.Passes.unique {s : Argv} {args args' : List (ℕ × Bytes)} (h : s.Passes args)
    (h' : s.Passes args') : args = args' := by
  have hle {a b : List (ℕ × Bytes)} (ha : s.Passes a) (hb : s.Passes b) : a.length ≤ b.length := by
    by_contra hlt
    have hword := ha.word b.length (not_le.mp hlt)
    rw [hb.null] at hword
    cases hword
  refine List.ext_getElem ((hle h h').antisymm (hle h' h)) fun i hi hi' => ?_
  have hoff : args[i].1 = args'[i].1 := ArgEntry.word.inj ((h.word i hi).symm.trans (h'.word i hi'))
  exact Prod.ext hoff (hasStr_unique (h.text i hi) (hoff ▸ h'.text i hi'))

/-! ### Words that are decoded completely -/

/-- A word that is refused, or decoded to its end: it holds no `?` and no `#`, and its escapes
consist of two hexadecimal digits. -/
def PlainWord (w : Bytes) : Prop :=
  (∃ e ∈ escapes w, RefusedEscape e) ∨ (∀ e ∈ escapes w, HexPair e) ∧ 63 ∉ w ∧ 35 ∉ w

/-- In a well escaped word, all the escapes that are read are proper. -/
lemma WellEscaped.escapes {w : Bytes} (h : WellEscaped w) :
    ∀ e ∈ escapes w, HexPair e ∧ ¬RefusedEscape e := by
  induction w using uri_induction with
  | nil => exact fun e he => absurd he List.not_mem_nil
  | escape c d uri ih =>
      obtain ⟨hp, huri⟩ := (wellEscaped_escape c d uri).mp h
      exact List.forall_mem_cons.mpr ⟨properEscape_iff.mp hp, ih huri⟩
  | cut uri hcut =>
      obtain ⟨c, d, -, hd, -⟩ := h 0 rfl
      have := (List.getElem?_eq_some_iff.mp hd).1
      simp only [List.length_cons] at this
      omega
  | stop b uri hstop =>
      rw [escapes_stop uri hstop]
      exact fun e he => absurd he List.not_mem_nil
  | plain b uri h₁ h₂ h₃ ih =>
      rw [escapes_plain uri h₁ h₂ h₃]
      exact ih ((wellEscaped_plain uri h₁).mp h)

/-- What stands behind a `?` or a `#` is lost. -/
lemma length_percentDecode_pathPart {w : Bytes} (hw : WellEscaped w) (h : 63 ∈ w ∨ 35 ∈ w) :
    (percentDecode (pathPart w)).length < (percentDecode w).length := by
  induction w using uri_induction with
  | nil => simp at h
  | escape c d uri ih =>
      obtain ⟨hp, huri⟩ := (wellEscaped_escape c d uri).mp hw
      have hmem : 63 ∈ uri ∨ 35 ∈ uri := by
        simpa [hp.left_ne.2.1.symm, hp.left_ne.2.2.symm, hp.right_ne.2.1.symm,
          hp.right_ne.2.2.symm] using h
      rw [pathPart_cons _ (by decide) (by decide), pathPart_cons _ hp.left_ne.2.1 hp.left_ne.2.2,
        pathPart_cons _ hp.right_ne.2.1 hp.right_ne.2.2, percentDecode, percentDecode]
      exact Nat.succ_lt_succ (ih huri hmem)
  | cut uri hcut =>
      obtain ⟨c, d, -, hd, -⟩ := hw 0 rfl
      have := (List.getElem?_eq_some_iff.mp hd).1
      simp only [List.length_cons] at this
      omega
  | stop b uri hstop =>
      have hb : b ≠ 37 := by rcases hstop with rfl | rfl <;> decide
      have hpath : pathPart (b :: uri) = [] := by rcases hstop with rfl | rfl <;> rfl
      rw [hpath, percentDecode_plain uri hb]
      exact Nat.succ_pos _
  | plain b uri h₁ h₂ h₃ ih =>
      have hmem : 63 ∈ uri ∨ 35 ∈ uri := by simpa [h₂.symm, h₃.symm] using h
      rw [pathPart_cons _ h₂ h₃, percentDecode_plain _ h₁, percentDecode_plain _ h₁]
      exact Nat.succ_lt_succ (ih ((wellEscaped_plain uri h₁).mp hw) hmem)

lemma pathPart_eq_self {w : Bytes} (hq : 63 ∉ w) (hf : 35 ∉ w) : pathPart w = w := by
  refine List.takeWhile_eq_self_iff.mpr fun b hb => ?_
  have h₁ : b ≠ 63 := fun h => hq (h ▸ hb)
  have h₂ : b ≠ 35 := fun h => hf (h ▸ hb)
  simp [h₁, h₂]

/-- A word becomes the argument it stands for when it is plain. -/
lemma unescapedWord_eq_iff (w : ℕ × Bytes) : unescapedWord w = decodeWord w ↔ PlainWord w.2 := by
  obtain ⟨off, u⟩ := w
  rw [unescapedWord, decodeWord]
  simp only
  by_cases hrefused : ∃ e ∈ escapes u, RefusedEscape e
  · have hcode : ¬(unescapeUri u false).1 = true := by
      rw [unescapeUri_fst_iff]
      exact fun hall => hrefused.elim fun e he => hall e he.1 he.2
    have hspec : ¬WellEscaped u := fun hw =>
      hrefused.elim fun e he => (hw.escapes e he.1).2 he.2
    rw [if_neg hcode, if_neg hspec]
    exact iff_of_true rfl (Or.inl hrefused)
  · have hnone : ∀ e ∈ escapes u, ¬RefusedEscape e := fun e he hr => hrefused ⟨e, he, hr⟩
    rw [if_pos ((unescapeUri_fst_iff u false).mpr hnone), PlainWord, or_iff_right hrefused]
    constructor
    · intro heq
      by_cases hw : WellEscaped u
      · rw [if_pos hw, unescapeUri_decodes false hw.escapes] at heq
        have hdec : percentDecode (pathPart u) = percentDecode u :=
          (Prod.mk.inj (Option.some.inj heq)).2
        have hwhole : ¬(63 ∈ u ∨ 35 ∈ u) := fun hmem =>
          (length_percentDecode_pathPart hw hmem).ne (congrArg _ hdec)
        exact ⟨fun e he => (hw.escapes e he).1, not_or.mp hwhole⟩
      · rw [if_neg hw] at heq
        cases heq
    · rintro ⟨hhex, hq, hf⟩
      have hproper : ∀ e ∈ escapes u, HexPair e ∧ ¬RefusedEscape e :=
        fun e he => ⟨hhex e he, hnone e he⟩
      have hw : WellEscaped u := by
        have := (wellEscaped_iff u).mpr hproper
        rwa [pathPart_eq_self hq hf] at this
      rw [if_pos hw, unescapeUri_decodes false hproper, pathPart_eq_self hq hf]

/-! ### The arguments -/

lemma length_filterMap_cons {α β : Type*} (f : α → Option β) (a : α) (l : List α) :
    ((a :: l).filterMap f).length = (f a).toList.length + (l.filterMap f).length := by
  cases hf : f a with
  | none => simp [List.filterMap_cons_none hf]
  | some b => simp [List.filterMap_cons_some hf, Nat.add_comm]

/-- Two searches that take what they find from increasing places agree on the first `n` results
when they agree wherever less than `n` have been found. -/
lemma take_filterMap_eq_iff {α β : Type*} {f g : α → Option β} {place : α → ℕ} {key : β → ℕ}
    (hf : ∀ a b, f a = some b → key b = place a) (hg : ∀ a b, g a = some b → key b = place a)
    {l : List α} (hl : l.Pairwise (place · < place ·)) (n : ℕ) :
    (l.filterMap f).take n = (l.filterMap g).take n ↔
      ∀ i a, l[i]? = some a → ((l.take i).filterMap g).length < n → f a = g a := by
  induction l generalizing n with
  | nil => simp
  | cons a l ih =>
      rw [List.pairwise_cons] at hl
      cases n with
      | zero => simp
      | succ n =>
          have hsplit : (∀ i a', (a :: l)[i]? = some a' →
              (((a :: l).take i).filterMap g).length < n + 1 → f a' = g a') ↔
              f a = g a ∧ ∀ i a', l[i]? = some a' →
                (g a).toList.length + ((l.take i).filterMap g).length < n + 1 → f a' = g a' := by
            constructor
            · intro h
              refine ⟨h 0 a rfl (Nat.succ_pos n), fun i a' hi hlt => h (i + 1) a' hi ?_⟩
              rwa [List.take_succ_cons, length_filterMap_cons]
            · rintro ⟨hfa, h⟩ i a' hi hlt
              cases i with
              | zero => exact Option.some.inj hi ▸ hfa
              | succ i =>
                  rw [List.take_succ_cons, length_filterMap_cons] at hlt
                  exact h i a' hi hlt
          have hother {f' : α → Option β} (hf' : ∀ a b, f' a = some b → key b = place a) {b : β}
              (hb : key b = place a) : b ∉ l.filterMap f' := by
            intro hmem
            obtain ⟨a', ha', hfa'⟩ := List.mem_filterMap.mp hmem
            have := hl.1 a' ha'
            rw [← hf' a' b hfa', hb] at this
            exact absurd this (lt_irrefl _)
          rw [hsplit]
          cases hfa : f a with
          | none =>
              rw [List.filterMap_cons_none hfa]
              cases hga : g a with
              | none =>
                  rw [List.filterMap_cons_none hga, ih hl.2]
                  simp
              | some b =>
                  rw [List.filterMap_cons_some hga]
                  refine iff_of_false (fun h => ?_) fun h => absurd h.1 (by simp)
                  refine hother hf (hg a b hga) (List.mem_of_mem_take (i := n + 1) ?_)
                  rw [h]
                  exact List.mem_cons_self
          | some b =>
              rw [List.filterMap_cons_some hfa]
              cases hga : g a with
              | none =>
                  rw [List.filterMap_cons_none hga]
                  refine iff_of_false (fun h => ?_) fun h => absurd h.1 (by simp)
                  refine hother hg (hf a b hfa) (List.mem_of_mem_take (i := n + 1) ?_)
                  rw [← h]
                  exact List.mem_cons_self
              | some c =>
                  rw [List.filterMap_cons_some hga, List.take_succ_cons, List.take_succ_cons,
                    List.cons.injEq, ih hl.2, Option.some.injEq]
                  simp [Nat.add_comm 1]

lemma wordsFrom_pairwise (off : ℕ) (ws : List Bytes) :
    (wordsFrom off ws).Pairwise (·.1 < ·.1) ∧ ∀ w ∈ wordsFrom off ws, off ≤ w.1 := by
  induction ws generalizing off with
  | nil => simp [wordsFrom]
  | cons w ws ih =>
      obtain ⟨hpair, hle⟩ := ih (off + w.length + 1)
      rw [wordsFrom, List.pairwise_cons, List.forall_mem_cons]
      refine ⟨⟨fun v hv => ?_, hpair⟩, le_rfl, fun v hv => ?_⟩
      · have := hle v hv
        simp only
        omega
      · have := hle v hv
        omega

/-- The argument of a word begins where the word does. -/
lemma unescapedWord_fst (a b : ℕ × Bytes) (h : unescapedWord a = some b) : b.1 = a.1 := by
  rw [unescapedWord] at h
  split_ifs at h
  exact (Option.some.inj h) ▸ rfl

lemma decodeWord_fst (a b : ℕ × Bytes) (h : decodeWord a = some b) : b.1 = a.1 := by
  rw [decodeWord] at h
  split_ifs at h
  exact (Option.some.inj h) ▸ rfl

/-- **The arguments of an index-style query** are its words, decoded completely, when every word
that the loop looks at is plain: those in front of which there are fewer than `CGI_ARGC_MAX - 1`
arguments. -/
theorem createArgv_exact_iff (heap : Mem) (r : Request) (hz : ∀ q ∈ r.queryString, 0 ∉ q) :
    (createArgv heap r).Passes (queryArgs r.queryString) ↔
      ∀ q ∈ r.queryString, 61 ∉ q → ∀ i w, (searchWords q)[i]? = some w →
        (((searchWords q).take i).filterMap decodeWord).length < cgiArgcMax - 1 →
        PlainWord w.2 := by
  have hfound := createArgv_passes heap hz
  have hiff : (createArgv heap r).Passes (queryArgs r.queryString) ↔
      foundArgs r.queryString = queryArgs r.queryString :=
    ⟨fun h => hfound.unique h, fun h => h ▸ hfound⟩
  rw [hiff]
  cases hq : r.queryString with
  | none => exact iff_of_true rfl fun q hq => by cases hq
  | some q =>
      rw [foundArgs, queryArgs]
      simp only [Option.mem_def, Option.some.injEq, forall_eq']
      by_cases heq : 61 ∈ q
      · rw [if_pos heq, if_pos heq]
        exact iff_of_true rfl fun h => absurd heq h
      · rw [if_neg heq, if_neg heq, searchWords, take_filterMap_eq_iff unescapedWord_fst
          decodeWord_fst (wordsFrom_pairwise 0 _).1]
        simp only [unescapedWord_eq_iff, heq, not_false_eq_true, true_imp_iff]

/-- Two words, the second one with an escaped space. -/
theorem createArgv_exact_words :
    (createArgv (fun _ => 0) { fd := 5, queryString := some (str "tom+je%20ry") }).Passes
      (queryArgs (some (str "tom+je%20ry"))) := by
  refine (createArgv_exact_iff (fun _ => 0)
    { fd := 5, queryString := some (str "tom+je%20ry") } ?_).mpr ?_
  · rintro q ⟨⟩
    decide
  · rintro q ⟨⟩ - i w hi -
    have hwords : searchWords (str "tom+je%20ry") = [(0, str "tom"), (4, str "je%20ry")] := by
      decide
    have hmem : w ∈ [(0, str "tom"), (4, str "je%20ry")] := hwords ▸ List.mem_of_getElem? hi
    rcases List.mem_cons.mp hmem with rfl | hmem
    · exact Or.inr ⟨fun e he => absurd he List.not_mem_nil, by decide, by decide⟩
    · obtain rfl := List.mem_singleton.mp hmem
      refine Or.inr ⟨fun e he => ?_, by decide, by decide⟩
      have hesc : escapes (str "je%20ry") = [some (50, 48)] := by decide
      rw [hesc, List.mem_singleton] at he
      exact ⟨50, 48, he, by decide, by decide⟩

/-- The question mark of a word is taken for the beginning of a query string. -/
theorem createArgv_loses_question :
    ¬∀ (heap : Mem) (r : Request), (∀ q ∈ r.queryString, 0 ∉ q) →
      (createArgv heap r).Passes (queryArgs r.queryString) := by
  intro hall
  have hz : ∀ q ∈ ({ fd := 5, queryString := some (str "a?b") } : Request).queryString, 0 ∉ q := by
    rintro q ⟨⟩
    decide
  have hargs := (createArgv_passes (fun _ => 0) hz).unique (hall (fun _ => 0) _ hz)
  have hwords : searchWords (str "a?b") = [(0, str "a?b")] := by decide
  have hplain : WellEscaped (str "a?b") := by
    refine (wellEscaped_plain _ (by decide)).mpr ((wellEscaped_plain _ (by decide)).mpr ?_)
    exact (wellEscaped_plain _ (by decide)).mpr wellEscaped_nil
  have hword : decodeWord (0, str "a?b") = some (0, str "a?b") := if_pos hplain
  have hquery : queryArgs (some (str "a?b")) = [(0, str "a?b")] := by
    rw [queryArgs, if_neg (by decide), hwords, List.filterMap_cons_some hword]
    rfl
  have hfound : foundArgs (some (str "a?b")) = [(0, str "a")] := by decide
  rw [hfound, hquery] at hargs
  exact absurd hargs (by decide)

end Yabwf
