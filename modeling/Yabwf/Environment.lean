import Mathlib.Data.List.ReduceOption
import Yabwf.Cgi
import Yabwf.Lib.Run

/-!
The environments of requests as arrays of pointers, with reloads in between.

* `EnvRequest`, `EnvState`: `cgi_env` and `cgi_env_index` of the requests, `common_cgi_env`,
  and the allocator.
* `EnvState.step`: request lines, header lines, the start of a script, the end of a request,
  and reloads, in any order.
* `EnvRequest.KeepsVariables`, `EnvState.freed`: what the script gets, and what is freed;
  `reload_disturbs_iff`: both are right exactly when no reload has come in between.

An address stands for one allocation. That more than `CGI_ENV_MAX` common variables make the
server exit plays no part.
-/

namespace Yabwf

/-- A string on the heap. -/
structure HeapString where
  addr : ℕ
  text : Bytes
  deriving DecidableEq, Repr

/-- The strings that are allocated for texts, from an address on. -/
def allot (next : ℕ) (texts : List Bytes) : List HeapString :=
  texts.mapIdx fun i text => ⟨next + i, text⟩

/-- The environment of a request. -/
structure EnvRequest where
  /-- Whether `process_logline` has been passed. -/
  logline : Bool := false
  /-- `cgi_env`. -/
  env : ℕ → Option HeapString := fun _ => none
  /-- `cgi_env_index`. -/
  index : ℕ := 0
  /-- What `add_cgi_env` has allocated for the request. -/
  stored : List HeapString := []
  /-- `common_cgi_env_count` as `process_logline` has found it. -/
  start : ℕ := 0

namespace EnvRequest

/-- `add_cgi_env`, with the string that it allocates. -/
def addCgiEnv (p : HeapString) (r : EnvRequest) : Bool × EnvRequest :=
  if r.index < cgiEnvMax then
    (true, { r with
      env := Function.update r.env r.index (some p)
      index := r.index + 1
      stored := r.stored ++ [p] })
  else (false, r)

/-- Calls of `my_add_cgi_env`, up to the first that fails. -/
def addCgiEnvs : List HeapString → EnvRequest → Bool × EnvRequest
  | [], r => (true, r)
  | p :: ps, r =>
      match r.addCgiEnv p with
      | (false, r) => (false, r)
      | (true, r) => addCgiEnvs ps r

/-- `complete_env`: the common variables are copied in front, and the request's own are
added. -/
def completeEnv (common ps : List HeapString) (r : EnvRequest) : Bool × EnvRequest :=
  match addCgiEnvs ps { r with env := fun i => common[i]?.or (r.env i) } with
  | (false, r) => (false, r)
  | (true, r) =>
      if r.index < cgiEnvMax + 1 then
        (true, { r with env := Function.update r.env r.index none })
      else (false, r)

/-- The environment that a script gets: the strings in front of the first null pointer. -/
def environment (r : EnvRequest) : List HeapString :=
  (((List.range (cgiEnvMax + 4)).map r.env).takeWhile Option.isSome).reduceOption

/-- The environment holds every variable that was stored for the request. -/
def KeepsVariables (r : EnvRequest) : Prop := ∀ p ∈ r.stored, p ∈ r.environment

end EnvRequest

/-- The common environment, the requests, and the next address of the allocator. -/
structure EnvState where
  common : List HeapString
  reqs : ℕ → EnvRequest := fun _ => {}
  next : ℕ

/-- What happens to the environments. -/
inductive EnvOp
  /-- `process_logline` succeeds. -/
  | logline (r : ℕ)
  /-- A header line is stored with `add_cgi_env`. -/
  | header (r : ℕ) (text : Bytes)
  /-- `init_cgi` calls `complete_env`. -/
  | complete (r : ℕ) (texts : List Bytes)
  /-- `sighup_run` reads a configuration with these `CGIEnv` directives. -/
  | reload (texts : List Bytes)
  /-- `free_request`. -/
  | free (r : ℕ)

namespace EnvState

/-- The server starts with its own variables. -/
def initial (own : List Bytes) : EnvState := { common := allot 0 own, next := own.length }

/-- Changing a request. -/
def setReq (s : EnvState) (r : ℕ) (q : EnvRequest) : EnvState :=
  { s with reqs := Function.update s.reqs r q }

/-- The strings that `free_request` frees: those from `common_cgi_env_count` on. -/
def freed (s : EnvState) (r : ℕ) : List HeapString :=
  (List.range' s.common.length ((s.reqs r).index - s.common.length)).filterMap (s.reqs r).env

/-- One step. There are header lines behind a request line only. -/
def step (s : EnvState) : EnvOp → EnvState
  | .logline r =>
      if (s.reqs r).logline then s
      else s.setReq r { s.reqs r with
        logline := true
        index := s.common.length
        stored := []
        start := s.common.length }
  | .header r text =>
      if (s.reqs r).logline then
        { s.setReq r ((s.reqs r).addCgiEnv ⟨s.next, text⟩).2 with next := s.next + 1 }
      else s
  | .complete r texts =>
      if (s.reqs r).logline then
        { s.setReq r ((s.reqs r).completeEnv s.common (allot s.next texts)).2 with
          next := s.next + texts.length }
      else s
  | .reload texts =>
      { s with common := s.common ++ allot s.next texts, next := s.next + texts.length }
  | .free r => s.setReq r { env := (s.reqs r).env }

/-- No reload has added a variable since the request line, or nothing has been stored for the
request. -/
def Undisturbed (s : EnvState) (r : ℕ) : Prop :=
  s.common.length = (s.reqs r).start ∨ (s.reqs r).stored = []

end EnvState

/-! ### Adding variables -/

namespace EnvRequest

/-- An array with strings written from an index on. -/
def written (n : ℕ) (qs : List HeapString) (env : ℕ → Option HeapString) :
    ℕ → Option HeapString :=
  fun i => (if n ≤ i then qs[i - n]? else none).or (env i)

@[simp] lemma written_nil (n : ℕ) (env : ℕ → Option HeapString) : written n [] env = env := by
  funext i
  simp [written]

lemma written_of_lt {n i : ℕ} (qs : List HeapString) (env : ℕ → Option HeapString)
    (h : i < n) : written n qs env i = env i := by
  rw [written, if_neg (not_le.mpr h), Option.none_or]

lemma written_add {n j : ℕ} {qs : List HeapString} (env : ℕ → Option HeapString)
    (h : j < qs.length) : written n qs env (n + j) = qs[j]? := by
  rw [written, if_pos (Nat.le_add_right n j), Nat.add_sub_cancel_left,
    List.getElem?_eq_getElem h, Option.some_or]

lemma written_of_le {n i : ℕ} {qs : List HeapString} (env : ℕ → Option HeapString)
    (h : n + qs.length ≤ i) : written n qs env i = env i := by
  rw [written, if_pos (by omega), List.getElem?_eq_none (by omega), Option.none_or]

lemma update_eq_written (n : ℕ) (p : HeapString) (env : ℕ → Option HeapString) :
    Function.update env n (some p) = written n [p] env := by
  funext i
  rcases lt_trichotomy i n with h | rfl | h
  · rw [written_of_lt _ _ h, Function.update_of_ne h.ne]
  · rw [Function.update_self, written, if_pos le_rfl, Nat.sub_self]
    rfl
  · rw [written_of_le _ h, Function.update_of_ne h.ne']

lemma written_cons (n : ℕ) (p : HeapString) (qs : List HeapString)
    (env : ℕ → Option HeapString) :
    written (n + 1) qs (written n [p] env) = written n (p :: qs) env := by
  funext i
  rcases lt_trichotomy i n with h | rfl | h
  · rw [written_of_lt _ _ (Nat.lt_succ_of_lt h), written_of_lt _ _ h, written_of_lt _ _ h]
  · rw [written_of_lt _ _ (Nat.lt_succ_self i), written, written, if_pos le_rfl, if_pos le_rfl,
      Nat.sub_self]
    rfl
  · have hpos : i - n = (i - (n + 1)) + 1 := by omega
    rw [written, if_pos (Nat.succ_le_of_lt h), written_of_le _ h, written, if_pos h.le, hpos,
      List.getElem?_cons_succ]

/-- The request with the strings added behind its index. -/
def added (qs : List HeapString) (r : EnvRequest) : EnvRequest :=
  { r with
    env := written r.index qs r.env
    index := r.index + qs.length
    stored := r.stored ++ qs }

@[simp] lemma added_nil (r : EnvRequest) : r.added [] = r := by
  simp [added]

lemma added_cons (r : EnvRequest) (p : HeapString) (qs : List HeapString) :
    (r.added [p]).added qs = r.added (p :: qs) := by
  show EnvRequest.mk r.logline (written (r.index + 1) qs (written r.index [p] r.env))
    (r.index + 1 + qs.length) (r.stored ++ [p] ++ qs) r.start = _
  rw [written_cons, List.append_assoc, Nat.add_right_comm]
  rfl

lemma addCgiEnv_eq (p : HeapString) (r : EnvRequest) :
    r.addCgiEnv p = if r.index < cgiEnvMax then (true, r.added [p]) else (false, r) := by
  rw [addCgiEnv, update_eq_written]
  rfl

/-- The strings that are added are the first ones, all of them if nothing fails. -/
lemma addCgiEnvs_eq (ps : List HeapString) (r : EnvRequest) :
    ∃ b qs, qs <+: ps ∧ (b = true → qs = ps) ∧ addCgiEnvs ps r = (b, r.added qs) := by
  induction ps generalizing r with
  | nil => exact ⟨true, [], List.prefix_rfl, fun _ => rfl, by rw [added_nil]; rfl⟩
  | cons p ps ih =>
      rw [addCgiEnvs, addCgiEnv_eq]
      by_cases hroom : r.index < cgiEnvMax
      · obtain ⟨b, qs, hqs, hall, heq⟩ := ih (r.added [p])
        refine ⟨b, p :: qs, List.cons_prefix_cons.mpr ⟨rfl, hqs⟩, fun hb => by rw [hall hb], ?_⟩
        rw [if_pos hroom]
        exact heq.trans (by rw [added_cons])
      · rw [if_neg hroom]
        exact ⟨false, [], List.nil_prefix, nofun, by rw [added_nil]⟩

/-- `complete_env` writes the common variables in front and strings behind the index; if it
succeeds, all of them, with a null pointer at the end. -/
lemma completeEnv_eq (common ps : List HeapString) (r : EnvRequest) :
    ∃ qs, qs <+: ps ∧
      (r.completeEnv common ps
          = (false, { r.added qs with env := written r.index qs (written 0 common r.env) }) ∨
        qs = ps ∧ r.index + ps.length < cgiEnvMax + 1 ∧
          r.completeEnv common ps = (true, { r.added ps with
            env := Function.update (written r.index ps (written 0 common r.env))
              (r.index + ps.length) none })) := by
  have hcopy : (fun i => common[i]?.or (r.env i)) = written 0 common r.env := by
    funext i
    rw [written, if_pos (Nat.zero_le i), Nat.sub_zero]
  obtain ⟨b, qs, hqs, hall, heq⟩ := addCgiEnvs_eq ps { r with env := written 0 common r.env }
  refine ⟨qs, hqs, ?_⟩
  rw [completeEnv, hcopy, heq]
  cases b with
  | false => exact .inl rfl
  | true =>
      obtain rfl := hall rfl
      dsimp only
      by_cases hroom : r.index + qs.length < cgiEnvMax + 1
      · exact .inr ⟨rfl, hroom, if_pos hroom⟩
      · exact .inl (if_neg hroom)

/-! ### Where the variables are -/

/-- Strings that have been allocated between two addresses, each at its own. -/
def Allotted (lo hi : ℕ) (ps : List HeapString) : Prop :=
  (∀ p ∈ ps, lo ≤ p.addr ∧ p.addr < hi) ∧ (ps.map HeapString.addr).Nodup

lemma allotted_allot (next : ℕ) (texts : List Bytes) :
    Allotted next (next + texts.length) (allot next texts) := by
  have haddr : (allot next texts).map HeapString.addr
      = (List.range texts.length).map (next + ·) := by
    refine List.ext_getElem (by simp [allot]) fun i _ _ => by simp [allot]
  constructor
  · intro p hp
    have hmem := List.mem_map_of_mem (f := HeapString.addr) hp
    rw [haddr] at hmem
    obtain ⟨i, hi, hpi⟩ := List.mem_map.mp hmem
    have hlt := List.mem_range.mp hi
    omega
  · rw [haddr]
    exact List.nodup_range.map fun i j h => Nat.add_left_cancel h

lemma Allotted.sublist {lo hi : ℕ} {ps qs : List HeapString} (h : Allotted lo hi ps)
    (hqs : qs.Sublist ps) : Allotted lo hi qs :=
  ⟨fun p hp => h.1 p (hqs.subset hp), h.2.sublist (hqs.map _)⟩

/-- The request's strings are behind its start, untouched from the end of the common
variables on; its strings and the common ones are allocated apart. -/
structure Fits (common : List HeapString) (next : ℕ) (r : EnvRequest) : Prop where
  index : r.index = r.start + r.stored.length
  start : r.start ≤ common.length
  slots : ∀ j < r.stored.length, common.length ≤ r.start + j →
    r.env (r.start + j) = r.stored[j]?
  stored : Allotted 0 next r.stored
  bound : ∀ p ∈ common, p.addr < next
  apart : ∀ p ∈ r.stored, ∀ q ∈ common, p.addr ≠ q.addr

lemma Fits.empty {common : List HeapString} {next : ℕ} (h : ∀ p ∈ common, p.addr < next)
    (env : ℕ → Option HeapString) : Fits common next { env := env } :=
  ⟨rfl, Nat.zero_le _, nofun, ⟨nofun, List.nodup_nil⟩, h, nofun⟩

/-- Common variables are added, and other strings are allocated. -/
lemma Fits.mono {common extra : List HeapString} {next next' : ℕ} {r : EnvRequest}
    (h : Fits common next r) (hnext : next ≤ next') (hextra : Allotted next next' extra) :
    Fits (common ++ extra) next' r where
  index := h.index
  start := by
    rw [List.length_append]
    exact h.start.trans (Nat.le_add_right _ _)
  slots j hj hle := by
    rw [List.length_append] at hle
    exact h.slots j hj (by omega)
  stored := ⟨fun p hp => ⟨Nat.zero_le _, (h.stored.1 p hp).2.trans_le hnext⟩, h.stored.2⟩
  bound p hp := by
    rcases List.mem_append.mp hp with hp | hp
    · exact (h.bound p hp).trans_le hnext
    · exact (hextra.1 p hp).2
  apart p hp q hq := by
    rcases List.mem_append.mp hq with hq | hq
    · exact h.apart p hp q hq
    · exact ((h.stored.1 p hp).2.trans_le (hextra.1 q hq).1).ne

lemma Fits.of_next {common : List HeapString} {next next' : ℕ} {r : EnvRequest}
    (h : Fits common next r) (hnext : next ≤ next') : Fits common next' r := by
  have hmono : Fits (common ++ []) next' r := h.mono hnext ⟨nofun, List.nodup_nil⟩
  rwa [List.append_nil] at hmono

/-- Strings are added behind the index, and the array is written otherwise only in front of
the end of the common variables or behind the new index. -/
lemma Fits.added {common : List HeapString} {next next' : ℕ} {r : EnvRequest}
    (h : Fits common next r) (hnext : next ≤ next') {qs : List HeapString}
    (hqs : Allotted next next' qs) {env : ℕ → Option HeapString}
    (henv : ∀ i, common.length ≤ i → i < r.index + qs.length →
      env i = written r.index qs r.env i) :
    Fits common next' { r.added qs with env := env } where
  index := by
    show r.index + qs.length = r.start + (r.stored ++ qs).length
    rw [h.index, List.length_append, Nat.add_assoc]
  start := h.start
  slots j hj hle := by
    have hj' : j < r.stored.length + qs.length := by
      rwa [← List.length_append]
    have hle' : common.length ≤ r.start + j := hle
    show env (r.start + j) = (r.stored ++ qs)[j]?
    rw [henv _ hle' (by rw [h.index]; omega)]
    rcases Nat.lt_or_ge j r.stored.length with hold | hnew
    · rw [written_of_lt _ _ (by rw [h.index]; omega), List.getElem?_append_left hold]
      exact h.slots j hold hle
    · have hpos : r.start + j = r.index + (j - r.stored.length) := by
        rw [h.index]
        omega
      rw [hpos, written_add _ (by omega), List.getElem?_append_right hnew]
  stored := by
    refine ⟨fun p hp => ⟨Nat.zero_le _, ?_⟩, ?_⟩
    · rcases List.mem_append.mp hp with hp | hp
      · exact (h.stored.1 p hp).2.trans_le hnext
      · exact (hqs.1 p hp).2
    · show ((r.stored ++ qs).map HeapString.addr).Nodup
      rw [List.map_append]
      refine h.stored.2.append hqs.2 fun a ha ha' => ?_
      obtain ⟨p, hp, rfl⟩ := List.mem_map.mp ha
      obtain ⟨q, hq, hpq⟩ := List.mem_map.mp ha'
      exact ((h.stored.1 p hp).2.trans_le (hqs.1 q hq).1).ne hpq.symm
  bound p hp := (h.bound p hp).trans_le hnext
  apart p hp q hq := by
    rcases List.mem_append.mp hp with hp | hp
    · exact h.apart p hp q hq
    · exact ((h.bound q hq).trans_le (hqs.1 p hp).1).ne'

end EnvRequest

namespace EnvState

open EnvRequest

/-- Everything fits. -/
def AllFit (s : EnvState) : Prop := ∀ r, Fits s.common s.next (s.reqs r)

lemma AllFit.setReq {s : EnvState} (h : s.AllFit) {next : ℕ} (hnext : s.next ≤ next) {r : ℕ}
    {q : EnvRequest} (hq : Fits s.common next q) : AllFit { s.setReq r q with next := next } := by
  intro r'
  show Fits s.common next (Function.update s.reqs r q r')
  rcases eq_or_ne r' r with rfl | hne
  · rwa [Function.update_self]
  · rw [Function.update_of_ne hne]
    exact (h r').of_next hnext

/-- **One step** keeps the variables where they are. -/
lemma AllFit.step {s : EnvState} (h : s.AllFit) (op : EnvOp) : (s.step op).AllFit := by
  cases op with
  | logline r =>
      rw [EnvState.step]
      split_ifs
      · exact h
      · exact h.setReq le_rfl ⟨rfl, le_rfl, nofun, ⟨nofun, List.nodup_nil⟩, (h r).bound, nofun⟩
  | header r text =>
      rw [EnvState.step]
      split_ifs
      · refine h.setReq (Nat.le_succ _) ?_
        rw [addCgiEnv_eq]
        split_ifs
        · exact (h r).added (Nat.le_succ _) (allotted_allot s.next [text]) fun _ _ _ => rfl
        · exact (h r).of_next (Nat.le_succ _)
      · exact h
  | complete r texts =>
      rw [EnvState.step]
      split_ifs
      · have hle : s.next ≤ s.next + texts.length := Nat.le_add_right _ _
        have hallot := allotted_allot s.next texts
        refine h.setReq hle ?_
        have hcopy : ∀ qs : List HeapString, ∀ i, s.common.length ≤ i →
            written (s.reqs r).index qs (written 0 s.common (s.reqs r).env) i
              = written (s.reqs r).index qs (s.reqs r).env i := by
          intro qs i hi
          have hbehind : written 0 s.common (s.reqs r).env i = (s.reqs r).env i :=
            written_of_le _ (by omega)
          exact congrArg (Option.or _) hbehind
        obtain ⟨qs, hqs, heq | ⟨rfl, -, heq⟩⟩ :=
          completeEnv_eq s.common (allot s.next texts) (s.reqs r)
        · rw [heq]
          exact (h r).added hle (hallot.sublist hqs.sublist) fun i hi _ => hcopy qs i hi
        · rw [heq]
          refine (h r).added hle hallot fun i hi hlt => ?_
          rw [Function.update_of_ne hlt.ne]
          exact hcopy _ i hi
      · exact h
  | reload texts =>
      exact fun r => (h r).mono (Nat.le_add_right _ _) (allotted_allot s.next texts)
  | free r => exact h.setReq le_rfl (Fits.empty (h r).bound _)

lemma allFit_initial (own : List Bytes) : (initial own).AllFit := fun _ =>
  Fits.empty (fun p hp => by
    have hlt := ((allotted_allot 0 own).1 p hp).2
    rwa [Nat.zero_add] at hlt) _

lemma allFit_runs (own : List Bytes) (ops : List EnvOp) :
    (Run.runs step (initial own) ops).AllFit := by
  have hstep : ∀ (s : EnvState) op, s.AllFit → True → (s.step op).AllFit :=
    fun _ op h _ => h.step op
  exact Run.runs_invariant hstep ops _ (allFit_initial own) (Run.allowed_true ..)

end EnvState

/-! ### What is freed, and what the script gets -/

namespace EnvRequest

/-- The elements of a list from a position on, read one by one. -/
lemma filterMap_range'_getElem? (l : List HeapString) (a s n : ℕ) (hs : s ≤ a)
    (hn : a + n = max a (s + l.length)) :
    (List.range' a n).filterMap (fun i => l[i - s]?) = l.drop (a - s) := by
  induction n generalizing a with
  | zero =>
      rw [List.range'_zero, List.filterMap_nil, List.drop_eq_nil_of_le (by omega)]
  | succ n ih =>
      have hlt : a - s < l.length := by omega
      have hnext : a + 1 - s = a - s + 1 := by omega
      rw [List.range'_succ, List.filterMap_cons, List.getElem?_eq_getElem hlt,
        ih (a + 1) (by omega) (by omega), hnext, List.drop_eq_getElem_cons hlt]

/-- **`free_request`** frees the variables that lie behind the common ones. -/
lemma Fits.freed {s : EnvState} {r : ℕ} (h : Fits s.common s.next (s.reqs r)) :
    s.freed r = (s.reqs r).stored.drop (s.common.length - (s.reqs r).start) := by
  have hindex := h.index
  have hstart := h.start
  rw [EnvState.freed, ← filterMap_range'_getElem? _ _ _
    ((s.reqs r).index - s.common.length) hstart (by omega)]
  refine List.filterMap_congr fun i hi => ?_
  obtain ⟨hlo, hhi⟩ := List.mem_range'_1.mp hi
  have hpos : i = (s.reqs r).start + (i - (s.reqs r).start) := by omega
  have hslot := h.slots (i - (s.reqs r).start) (by omega) (by omega)
  rwa [← hpos] at hslot

/-- The strings in front of the null pointer. -/
lemma mem_environment_iff {r : EnvRequest} {n : ℕ} (hn : n < cgiEnvMax + 4)
    (hsome : ∀ i < n, (r.env i).isSome) (hnone : r.env n = none) (p : HeapString) :
    p ∈ r.environment ↔ ∃ i < n, r.env i = some p := by
  have hsplit : List.range (cgiEnvMax + 4)
      = List.range n ++ n :: List.range' (n + 1) (cgiEnvMax + 3 - n) := by
    rw [List.range_eq_range', List.range_eq_range', ← List.range'_succ,
      show List.range' n (cgiEnvMax + 3 - n + 1)
        = List.range' (0 + 1 * n) (cgiEnvMax + 3 - n + 1) by rw [Nat.zero_add, Nat.one_mul],
      List.range'_append]
    congr 1
    omega
  have htake : ((List.range (cgiEnvMax + 4)).map r.env).takeWhile Option.isSome
      = (List.range n).map r.env := by
    rw [hsplit, List.map_append, List.takeWhile_append_of_pos, List.map_cons, hnone,
      List.takeWhile_cons_of_neg (by simp), List.append_nil]
    intro q hq
    obtain ⟨i, hi, rfl⟩ := List.mem_map.mp hq
    exact hsome i (List.mem_range.mp hi)
  rw [environment, htake, List.reduceOption_mem_iff]
  simp

/-- **`complete_env`** keeps the variables of the request unless it covers the first one. -/
lemma Fits.keepsVariables_iff {common ps : List HeapString} {next next' : ℕ} {r : EnvRequest}
    (h : Fits common next r) (hps : Allotted next next' ps)
    (hok : (r.completeEnv common ps).1 = true) :
    (r.completeEnv common ps).2.KeepsVariables ↔
      common.length = r.start ∨ r.stored = [] := by
  obtain ⟨qs, -, heq | ⟨-, hroom, heq⟩⟩ := completeEnv_eq common ps r
  · rw [heq] at hok
    cases hok
  rw [heq]
  have hindex := h.index
  have hstart := h.start
  set env := Function.update (written r.index ps (written 0 common r.env))
    (r.index + ps.length) none with henv
  have hold : ∀ i < r.index, env i = written 0 common r.env i := fun i hi => by
    rw [henv, Function.update_of_ne (by omega), written_of_lt _ _ hi]
  have hnew : ∀ j < ps.length, env (r.index + j) = ps[j]? := fun j hj => by
    rw [henv, Function.update_of_ne (by omega), written_add _ hj]
  have hcommon : ∀ i < common.length, written 0 common r.env i = common[i]? := fun i hi => by
    have hcopied := written_add (n := 0) r.env hi
    rwa [Nat.zero_add] at hcopied
  have hkept : ∀ j < r.stored.length, common.length ≤ r.start + j →
      env (r.start + j) = r.stored[j]? := fun j hj hle => by
    rw [hold _ (by omega), written_of_le _ (by omega), h.slots j hj hle]
  -- every slot in front of the null pointer is in use
  have hsome : ∀ i < r.index + ps.length, (env i).isSome := fun i hi => by
    rcases Nat.lt_or_ge i r.index with hlt | hge
    · rcases Nat.lt_or_ge i common.length with hc | hc
      · rw [hold i hlt, hcommon i hc, List.getElem?_eq_getElem hc]
        rfl
      · have hpos : i = r.start + (i - r.start) := by omega
        rw [hpos, hkept _ (by omega) (by omega), List.getElem?_eq_getElem (by omega)]
        rfl
    · have hpos : i = r.index + (i - r.index) := by omega
      rw [hpos, hnew _ (by omega), List.getElem?_eq_getElem (by omega)]
      rfl
  have hmem : ∀ p, p ∈ environment { r.added ps with env := env } ↔
      ∃ i < r.index + ps.length, env i = some p :=
    mem_environment_iff (by omega) hsome (Function.update_self ..)
  constructor
  · intro hkeeps
    by_contra hbad
    obtain ⟨hlen, hne⟩ := not_or.mp hbad
    obtain ⟨p, rest, hstored⟩ := List.exists_cons_of_ne_nil hne
    have hp : p ∈ r.stored := hstored ▸ List.mem_cons_self
    obtain ⟨i, hi, hip⟩ := (hmem p).mp (hkeeps p (List.mem_append_left _ hp))
    rcases Nat.lt_or_ge i r.index with hlt | hge
    · rcases Nat.lt_or_ge i common.length with hc | hc
      · rw [hold i hlt, hcommon i hc] at hip
        exact h.apart p hp p (List.mem_of_getElem? hip) rfl
      · -- the first variable stands in front of the end of the common ones
        have hpos : i = r.start + (i - r.start) := by omega
        rw [hpos, hkept _ (by omega) (by omega)] at hip
        have hfirst : r.stored[0]? = some p := by rw [hstored]; rfl
        have hlt0 : 0 < r.stored.length := List.length_pos_of_mem hp
        have hsame := (List.getElem?_inj hlt0 (List.Nodup.of_map _ h.stored.2)).mp
          (hfirst.trans hip.symm)
        omega
    · have hpos : i = r.index + (i - r.index) := by omega
      rw [hpos, hnew _ (by omega)] at hip
      exact absurd ((h.stored.1 p hp).2) (not_lt.mpr (hps.1 p (List.mem_of_getElem? hip)).1)
  · intro hsafe p hp
    refine (hmem p).mpr ?_
    rcases List.mem_append.mp hp with hp | hp
    · obtain ⟨j, hj, hjp⟩ := List.mem_iff_getElem.mp hp
      have hlen := hsafe.resolve_right (List.ne_nil_of_mem hp)
      refine ⟨r.start + j, by omega, ?_⟩
      rw [hkept j hj (by omega), List.getElem?_eq_getElem hj, hjp]
    · obtain ⟨j, hj, hjp⟩ := List.mem_iff_getElem.mp hp
      refine ⟨r.index + j, by omega, ?_⟩
      rw [hnew j hj, List.getElem?_eq_getElem hj, hjp]

end EnvRequest

namespace EnvState

/-- **Reloads and requests in flight.** After any run, whatever `complete_env` builds for a
request holds every variable of the request, and `free_request` frees exactly the strings
that were allocated for it, if and only if no reload has added a common variable since the
request line, or nothing has been stored for the request. -/
theorem reload_disturbs_iff (own : List Bytes) (ops : List EnvOp) (r : ℕ) :
    (∀ texts, (((Run.runs step (initial own) ops).reqs r).completeEnv
        (Run.runs step (initial own) ops).common
        (allot (Run.runs step (initial own) ops).next texts)).1 = true →
      ((((Run.runs step (initial own) ops).reqs r).completeEnv
          (Run.runs step (initial own) ops).common
          (allot (Run.runs step (initial own) ops).next texts)).2.KeepsVariables ↔
        (Run.runs step (initial own) ops).Undisturbed r)) ∧
      ((Run.runs step (initial own) ops).freed r
        = ((Run.runs step (initial own) ops).reqs r).stored ↔
        (Run.runs step (initial own) ops).Undisturbed r) := by
  have hfits := allFit_runs own ops r
  generalize Run.runs step (initial own) ops = s at hfits ⊢
  have hstart := hfits.start
  refine ⟨fun texts hok =>
    hfits.keepsVariables_iff (EnvRequest.allotted_allot s.next texts) hok, ?_⟩
  rw [hfits.freed, Undisturbed]
  constructor
  · intro hall
    have hlen := congrArg List.length hall
    rw [List.length_drop] at hlen
    rcases Nat.eq_zero_or_pos (s.reqs r).stored.length with hnone | hpos
    · exact .inr (List.eq_nil_of_length_eq_zero hnone)
    · exact .inl (by omega)
  · rintro (hlen | hnone)
    · rw [hlen, Nat.sub_self, List.drop_zero]
    · rw [hnone, List.drop_nil]

/-- A request stores a header line, and a reload comes before its script is started and
before it ends: the script misses the variable, and its string is not freed. -/
theorem reload_disturbs :
    ((((Run.runs step (initial []) [.logline 0, .header 0 (str "HTTP_A=1"),
        .reload [str "B=2"]]).reqs 0).completeEnv
        (Run.runs step (initial []) [.logline 0, .header 0 (str "HTTP_A=1"),
          .reload [str "B=2"]]).common []).1 = true ∧
      ¬(((Run.runs step (initial []) [.logline 0, .header 0 (str "HTTP_A=1"),
        .reload [str "B=2"]]).reqs 0).completeEnv
        (Run.runs step (initial []) [.logline 0, .header 0 (str "HTTP_A=1"),
          .reload [str "B=2"]]).common []).2.KeepsVariables) ∧
      (Run.runs step (initial []) [.logline 0, .header 0 (str "HTTP_A=1"),
        .reload [str "B=2"]]).freed 0
        ≠ ((Run.runs step (initial []) [.logline 0, .header 0 (str "HTTP_A=1"),
          .reload [str "B=2"]]).reqs 0).stored := by
  unfold EnvRequest.KeepsVariables
  decide

end EnvState

end Yabwf
