import Mathlib.Data.List.ReduceOption
import Yabwf.HeaderEnd
import Yabwf.HeaderFields
import Yabwf.Process
import Yabwf.RequestLine

/-!
The names of the variables that a script gets.

* `varName`, `Request.environment`: a variable is named by what stands in front of its first `=`.
* `EnvHolds`: the strings that a request has stored.
* `headerVars`, `optionLines_env`: what the lines of a header pass on.
* `completeEnv_environment`: the environment at the start of the script.
* `uniqueNames_iff`: its names are different, and the host is the right one, unless a header is
  passed on twice, or under a name that is taken.
-/

namespace Yabwf

open Memory Span

/-! ### Variables -/

/-- The name of a variable. -/
def varName (p : Bytes) : Bytes := p.takeWhile (· != 61)

/-- Its value. -/
def varValue (p : Bytes) : Bytes := (p.dropWhile (· != 61)).drop 1

/-- The environment that a script gets: the strings in front of the first null pointer. -/
def Request.environment (r : Request) : List Bytes :=
  (((List.range (cgiEnvMax + 4)).map r.cgiEnv).takeWhile Option.isSome).reduceOption

/-- The strings that are stored from an index on, up to `cgi_env_index`. -/
structure EnvHolds (n : ℕ) (r : Request) (vars : List Bytes) : Prop where
  index : r.cgiEnvIndex = n + vars.length
  env : ∀ i < vars.length, r.cgiEnv (n + i) = vars[i]?

namespace EnvHolds

variable {n : ℕ} {r r' : Request} {vars : List Bytes}

lemma congr (h : EnvHolds n r vars) (hindex : r'.cgiEnvIndex = r.cgiEnvIndex)
    (henv : r'.cgiEnv = r.cgiEnv) : EnvHolds n r' vars :=
  ⟨hindex.trans h.index, fun i hi => by rw [henv, h.env i hi]⟩

/-- One more string. -/
lemma store (h : EnvHolds n r vars) (p : Bytes) :
    EnvHolds n { r with
      cgiEnv := Function.update r.cgiEnv r.cgiEnvIndex (some p)
      cgiEnvIndex := r.cgiEnvIndex + 1 } (vars ++ [p]) := by
  constructor
  · show r.cgiEnvIndex + 1 = n + (vars ++ [p]).length
    rw [h.index, List.length_append, List.length_singleton, Nat.add_assoc]
  · intro i hi
    rw [List.length_append, List.length_singleton, Nat.lt_succ_iff_lt_or_eq] at hi
    show Function.update r.cgiEnv r.cgiEnvIndex (some p) (n + i) = (vars ++ [p])[i]?
    rw [h.index]
    rcases hi with hi | rfl
    · rw [Function.update_of_ne (by omega), h.env i hi, List.getElem?_append_left hi]
    · rw [Function.update_self, List.getElem?_concat_length]

lemma addCgiEnv {key value : Bytes} {httpPrefix : Bool} (h : EnvHolds n r vars)
    (hadd : addCgiEnv r key value httpPrefix = (true, r')) :
    EnvHolds n r' (vars ++ [(if httpPrefix then str "HTTP_" else []) ++ envGen key value]) ∧
      ∃ env index, r' = { r with cgiEnv := env, cgiEnvIndex := index } := by
  rw [Yabwf.addCgiEnv] at hadd
  by_cases hroom : r.cgiEnvIndex < cgiEnvMax
  · rw [if_pos hroom] at hadd
    cases hadd
    exact ⟨h.store _, _, _, rfl⟩
  · rw [if_neg hroom] at hadd
    cases hadd

/-- The environment of a script is what is stored in front of the null pointer. -/
lemma environment_eq (h : EnvHolds 0 r vars) (hend : r.cgiEnv vars.length = none)
    (hlen : vars.length < cgiEnvMax + 4) : r.environment = vars := by
  obtain ⟨k, hk⟩ := Nat.exists_eq_add_of_lt hlen
  have hrange : List.range (cgiEnvMax + 4)
      = List.range vars.length ++ vars.length :: List.map (vars.length + 1 + ·) (List.range k) := by
    rw [hk, Nat.add_right_comm, List.range_add, List.range_succ, List.append_assoc]
    rfl
  have hmap : (List.range vars.length).map r.cgiEnv = vars.map some := by
    refine List.ext_getElem (by simp) fun i hi _ => ?_
    have hi' : i < vars.length := by simpa using hi
    have henv := h.env i hi'
    rw [Nat.zero_add, List.getElem?_eq_getElem hi'] at henv
    simpa using henv
  rw [Request.environment, hrange, List.map_append, List.map_cons, hmap, hend,
    List.takeWhile_append_of_pos (by simp), List.takeWhile_cons_of_neg (by simp), List.append_nil,
    List.reduceOption, List.filterMap_map]
  exact List.filterMap_some

end EnvHolds

/-! ### The lines of a header -/

/-- The names that are kept for the server. `Host` is, unless the host is known already. -/
def keptNames (cfg : Config) (host : Option ℕ) : List Bytes :=
  [str "ACCEPT", str "CONTENT_TYPE", str "CONTENT_LENGTH", str "IF_MODIFIED_SINCE"]
    ++ (if cfg.kaMax ≠ 0 then [str "CONNECTION"] else [])
    ++ (if host = none then [str "HOST"] else [])

/-- The variable for a header. -/
def headerVar (p : Bytes × Bytes) : Bytes := str "HTTP_" ++ envGen p.1 p.2

/-- What a header adds to the environment: `Referer` is added twice. -/
def headerVars (cfg : Config) (host : Option ℕ) (p : Bytes × Bytes) : List Bytes :=
  if p.1 ∈ keptNames cfg host then []
  else if p.1 = str "REFERER" then [headerVar p, headerVar p]
  else [headerVar p]

/-- A name has not been met yet, behind a request line that has set the host or not. -/
structure Unmet (host : Option ℕ) (key : Bytes) (r : Request) : Prop where
  get : ∀ f : HeaderField, key = f.key → f.get r = if f = .headerHost then host else none
  keepalive : key = str "CONNECTION" → r.keepalive ≠ .stopped
  ranges : key = str "RANGE" → r.ranges = []

section

variable {cfg : Config} {env : Env} {n off : ℕ} {host : Option ℕ} {key value : Bytes}
  {vars : List Bytes} {c d : Conn}

lemma optionEnv_holds (h : EnvHolds n c.req vars) (heq : optionEnv key value c = (true, d)) :
    EnvHolds n d.req (vars ++ [headerVar (key, value)]) := by
  rw [optionEnv, Prod.mk.injEq] at heq
  obtain ⟨hret, hd⟩ := heq
  rw [← hd]
  exact (h.addCgiEnv (Prod.ext hret rfl)).1

/-- **One header** that is accepted. -/
lemma optionValue_holds (hunmet : Unmet host key c.req) (h : EnvHolds n c.req vars)
    (heq : optionValue cfg env key value off c = (true, d)) :
    EnvHolds n d.req (vars ++ headerVars cfg host (key, value)) := by
  have hkept (hmem : key ∈ keptNames cfg host) (hd : EnvHolds n d.req vars) :
      EnvHolds n d.req (vars ++ headerVars cfg host (key, value)) := by
    rw [headerVars, if_pos hmem, List.append_nil]
    exact hd
  rw [optionValue] at heq
  by_cases haccept : key = str "ACCEPT"
  · rw [if_pos haccept, Prod.mk.injEq] at heq
    exact hkept (by simp [keptNames, haccept]) (heq.2 ▸ h)
  rw [if_neg haccept] at heq
  by_cases htype : key = str "CONTENT_TYPE"
  · rw [if_pos ⟨htype, hunmet.get .contentType htype⟩, Prod.mk.injEq] at heq
    exact hkept (by simp [keptNames, htype]) (heq.2 ▸ h.congr rfl rfl)
  rw [if_neg fun hif => htype hif.1] at heq
  by_cases hlength : key = str "CONTENT_LENGTH"
  · rw [if_pos ⟨hlength, hunmet.get .contentLength hlength⟩, Prod.mk.injEq] at heq
    exact hkept (by simp [keptNames, hlength]) (heq.2 ▸ h.congr rfl rfl)
  rw [if_neg fun hif => hlength hif.1] at heq
  by_cases hconn : key = str "CONNECTION" ∧ cfg.kaMax ≠ 0
  · rw [if_pos ⟨hconn.1, hconn.2, hunmet.keepalive hconn.1⟩, Prod.mk.injEq] at heq
    exact hkept (by simp [keptNames, hconn]) (heq.2 ▸ h.congr rfl rfl)
  rw [if_neg fun hif => hconn ⟨hif.1, hif.2.1⟩] at heq
  by_cases hhost : key = str "HOST" ∧ host = none
  · have hget : c.req.headerHost = none := (hunmet.get .headerHost hhost.1).trans hhost.2
    rw [if_pos ⟨hhost.1, hget⟩, Prod.mk.injEq] at heq
    exact hkept (by simp [keptNames, hhost]) (heq.2 ▸ h.congr rfl rfl)
  have hset : ¬(key = str "HOST" ∧ c.req.headerHost = none) := fun hif =>
    hhost ⟨hif.1, (hunmet.get .headerHost hif.1).symm.trans hif.2⟩
  rw [if_neg hset] at heq
  by_cases hsince : key = str "IF_MODIFIED_SINCE"
  · rw [if_pos ⟨hsince, hunmet.get .ifModifiedSince hsince⟩, Prod.mk.injEq] at heq
    exact hkept (by simp [keptNames, hsince]) (heq.2 ▸ h.congr rfl rfl)
  rw [if_neg fun hif => hsince hif.1] at heq
  have hpassed : key ∉ keptNames cfg host := by
    simp only [keptNames, List.mem_append, List.mem_cons, List.not_mem_nil, or_false]
    split_ifs <;> simp_all
  rw [headerVars, if_neg hpassed]
  by_cases href : key = str "REFERER"
  · rw [if_pos href] at heq ⊢
    -- the first of the two calls has to be accepted, too
    have hset : EnvHolds n (c.upd fun r => { r with headerReferer := some off }).req vars :=
      h.congr rfl rfl
    generalize hfirst : optionEnv key value (c.upd fun r => { r with headerReferer := some off })
      = res at heq
    obtain ⟨ret, e⟩ := res
    cases ret with
    | true =>
        have htwice := optionEnv_holds (optionEnv_holds hset hfirst) heq
        rwa [List.append_assoc] at htwice
    | false => cases heq
  rw [if_neg href] at heq ⊢
  by_cases hrange : key = str "RANGE"
  · have hnone : ¬c.req.ranges.head?.map Range.stop = some intMax := by
      rw [hunmet.ranges hrange]
      simp
    rw [if_pos hrange, if_neg hnone] at heq
    obtain ⟨ranges, k, hparse⟩ := rangeParse_eq c.req value
    generalize rangeParse c.req value = res at heq hparse
    obtain ⟨ret, r⟩ := res
    cases ret with
    | true =>
        have hr : EnvHolds n r vars := by
          rw [show r = _ from hparse]
          exact h.congr rfl rfl
        exact optionEnv_holds (c := { c with req := r }) hr heq
    | false => cases heq
  rw [if_neg hrange] at heq
  by_cases hagent : key = str "USER_AGENT"
  · rw [if_pos hagent] at heq
    have hset : EnvHolds n (c.upd fun r => { r with headerUserAgent := some off }).req vars :=
      h.congr rfl rfl
    exact optionEnv_holds hset heq
  · rw [if_neg hagent] at heq
    exact optionEnv_holds h heq

lemma HeaderLine.normalValue_of_pair {l : HeaderLine}
    (h : ∀ p, l.pair = some p → p.1 ≠ key) : l.normalValue key = none := by
  rcases optionLine_cases {} l { req := { fd := 0 } } with ⟨hfield, -⟩ |
    ⟨name, off, value, -, hfield, hpair, -⟩
  · rw [normalValue, hfield]
    rfl
  · rw [normalValue_of_field hfield, if_neg (h _ hpair)]

/-- A name stays unmet until a line has it. -/
lemma Unmet.optionLine {l : HeaderLine} (h : Unmet host key c.req)
    (heq : optionLine cfg l c = (true, d)) (hne : ∀ p, l.pair = some p → p.1 ≠ key) :
    Unmet host key d.req := by
  have hvalue := HeaderLine.normalValue_of_pair hne
  refine ⟨fun f hf => ?_, fun hconn => ?_, fun hrange => ?_⟩
  · have hget := optionLine_get cfg l c f
    rw [heq, ← hf, hvalue, Option.or_none] at hget
    exact hget.trans (h.get f hf)
  · have hka := optionLine_keepalive cfg l c (by rw [heq]) (hconn ▸ hvalue)
    rw [heq] at hka
    rw [hka]
    exact h.keepalive hconn
  · have hranges := optionLine_ranges cfg l c (hrange ▸ hvalue)
    rw [heq] at hranges
    exact hranges.trans (h.ranges hrange)

/-- **One line** that is accepted. -/
lemma optionLine_holds {l : HeaderLine} (hunmet : ∀ p ∈ l.pair, Unmet host p.1 c.req)
    (h : EnvHolds n c.req vars) (heq : optionLine cfg l c = (true, d)) :
    EnvHolds n d.req (vars ++ l.pair.toList.flatMap (headerVars cfg host)) := by
  rcases optionLine_cases cfg l c with ⟨-, hpair, ret, stream, hline⟩ |
    ⟨name, off, value, stream, -, hpair, hline⟩
  · rw [hline, Prod.mk.injEq] at heq
    rw [hpair, ← heq.2, Option.toList_none, List.flatMap_nil, List.append_nil]
    exact h.congr rfl rfl
  · rw [hline] at heq
    rw [hpair, Option.toList_some, List.flatMap_singleton]
    have hname : Unmet host (toUpper name) (c.atLine stream l.line).req := by
      have hu := hunmet _ hpair
      exact ⟨fun f hf => ((atLine_same stream l.line c).get f).trans (hu.get f hf), hu.keepalive,
        hu.ranges⟩
    exact optionValue_holds hname (h.congr rfl rfl) heq

/-- **A run of lines** with different names. -/
lemma optionLines_holds {ls : List HeaderLine} (hread : optionLines cfg ls c = some d)
    (hnames : ((ls.filterMap HeaderLine.pair).map Prod.fst).Nodup)
    (hunmet : ∀ p ∈ ls.filterMap HeaderLine.pair, Unmet host p.1 c.req)
    (h : EnvHolds n c.req vars) :
    EnvHolds n d.req (vars ++ (ls.filterMap HeaderLine.pair).flatMap (headerVars cfg host)) := by
  induction ls generalizing c vars with
  | nil =>
      rw [optionLines, Option.some.injEq] at hread
      rw [← hread]
      simpa using h
  | cons l ls ih =>
      rw [optionLines] at hread
      generalize heq : optionLine cfg l c = res at hread
      obtain ⟨ret, e⟩ := res
      cases ret with
      | false => cases hread
      | true =>
          have hline := optionLine_holds
            (fun p hp => hunmet p (List.mem_filterMap.mpr ⟨l, List.mem_cons_self, hp⟩)) h heq
          have hrest : ∀ p ∈ ls.filterMap HeaderLine.pair, Unmet host p.1 e.req := by
            intro p hp
            obtain ⟨l', hl', hp'⟩ := List.mem_filterMap.mp hp
            have hp₀ := hunmet p (List.mem_filterMap.mpr ⟨l', List.mem_cons_of_mem _ hl', hp'⟩)
            refine hp₀.optionLine heq fun q hq hname => ?_
            rw [List.filterMap_cons_some hq, List.map_cons, List.nodup_cons] at hnames
            exact hnames.1 (hname ▸ List.mem_map_of_mem hp)
          have hnames' : ((ls.filterMap HeaderLine.pair).map Prod.fst).Nodup := by
            cases hpair : l.pair with
            | none => rwa [List.filterMap_cons_none hpair] at hnames
            | some p =>
                rw [List.filterMap_cons_some hpair, List.map_cons, List.nodup_cons] at hnames
                exact hnames.2
          have hrun := ih hread hnames' hrest hline
          cases hpair : l.pair with
          | none =>
              rw [List.filterMap_cons_none hpair]
              rwa [hpair, Option.toList_none, List.flatMap_nil, List.append_nil] at hrun
          | some p =>
              rw [List.filterMap_cons_some hpair, List.flatMap_cons, ← List.append_assoc]
              rwa [hpair, Option.toList_some, List.flatMap_singleton] at hrun

end

/-! ### The start of the script -/

section

variable {cfg : Config} {n : ℕ} {vars : List Bytes} {r r' : Request}

/-- Several variables are added. -/
lemma addCgiEnvs_holds {ps : List (Bytes × Bytes)} (h : EnvHolds n r vars)
    (hadd : addCgiEnvs ps r = (true, r')) :
    EnvHolds n r' (vars ++ ps.map fun p => envGen p.1 p.2) ∧
      ∃ env index, r' = { r with cgiEnv := env, cgiEnvIndex := index } := by
  induction ps generalizing r vars with
  | nil =>
      rw [addCgiEnvs, Prod.mk.injEq] at hadd
      rw [← hadd.2, List.map_nil, List.append_nil]
      exact ⟨h, _, _, rfl⟩
  | cons p ps ih =>
      rw [addCgiEnvs] at hadd
      generalize hfirst : addCgiEnv r p.1 p.2 false = res at hadd
      obtain ⟨ret, q⟩ := res
      cases ret with
      | false => cases hadd
      | true =>
          obtain ⟨hq, env, index, rfl⟩ := h.addCgiEnv hfirst
          obtain ⟨hholds, env', index', rfl⟩ := ih hq hadd
          refine ⟨?_, _, _, rfl⟩
          rwa [List.append_assoc] at hholds

/-- **The environment**: the common variables, those of the header, and those of the request. -/
lemma completeEnv_environment (h : EnvHolds cfg.commonCgiEnv.length r vars)
    (heq : completeEnv cfg r = (true, r')) :
    r'.environment = cfg.commonCgiEnv ++ vars
        ++ (completeEnvVars cfg r).map (fun p => envGen p.1 p.2) ∧
      r'.headerHost = r.headerHost ∧ r'.clientStream = r.clientStream := by
  unfold completeEnv at heq
  extract_lets q at heq
  have hq : EnvHolds 0 q (cfg.commonCgiEnv ++ vars) := by
    constructor
    · rw [Nat.zero_add, List.length_append]
      exact h.index
    · intro i hi
      rw [Nat.zero_add]
      show (if i < cfg.commonCgiEnv.length then cfg.commonCgiEnv[i]? else r.cgiEnv i) = _
      by_cases hlt : i < cfg.commonCgiEnv.length
      · rw [if_pos hlt, List.getElem?_append_left hlt]
      · obtain ⟨j, rfl⟩ := Nat.exists_eq_add_of_le (not_lt.mp hlt)
        rw [List.length_append] at hi
        rw [if_neg hlt, h.env j (by omega), List.getElem?_append_right (Nat.le_add_right _ _),
          Nat.add_sub_cancel_left]
  have hvars : completeEnvVars cfg q = completeEnvVars cfg r := rfl
  have hhost : q.headerHost = r.headerHost ∧ q.clientStream = r.clientStream := ⟨rfl, rfl⟩
  rw [hvars] at heq
  clear_value q
  generalize hadd : addCgiEnvs (completeEnvVars cfg r) q = res at heq
  obtain ⟨ret, s⟩ := res
  cases ret with
  | false => cases heq
  | true =>
      obtain ⟨hs, env, index, rfl⟩ := addCgiEnvs_holds hq hadd
      dsimp only at heq
      by_cases hroom : index < cgiEnvMax + 1
      swap
      · rw [if_neg hroom] at heq
        cases heq
      rw [if_pos hroom] at heq
      cases heq
      generalize cfg.commonCgiEnv ++ vars ++ (completeEnvVars cfg r).map (fun p => envGen p.1 p.2)
        = all at hs ⊢
      have hindex : index = all.length := by
        have := hs.index
        rwa [Nat.zero_add] at this
      subst hindex
      refine ⟨EnvHolds.environment_eq ⟨hs.index, fun i hi => ?_⟩ ?_ ?_, hhost⟩
      · rw [← hs.env i hi, Nat.zero_add]
        exact Function.update_of_ne hi.ne _ _
      · exact Function.update_self _ _ _
      · omega

end

/-! ### Names -/

lemma envGen_eq (key value : Bytes) : envGen key value = key ++ 61 :: value := by
  simp only [envGen, List.append_assoc]
  rfl

lemma varName_envGen (key value : Bytes) : varName (envGen key value) = varName key := by
  rw [varName, varName, envGen_eq, List.takeWhile_append]
  split_ifs with hall
  · rw [List.takeWhile_cons_of_neg (by decide), List.append_nil]
    exact ((List.takeWhile_prefix _).eq_of_length hall).symm
  · rfl

lemma varName_headerVar (p : Bytes × Bytes) :
    varName (headerVar p) = str "HTTP_" ++ varName p.1 := by
  rw [headerVar, varName, List.takeWhile_append_of_pos (by decide +kernel), ← varName,
    varName_envGen]

/-- A name without `=` names the variable. -/
lemma varName_eq_self {key : Bytes} (h : 61 ∉ key) : varName key = key := by
  rw [varName, List.takeWhile_eq_self_iff]
  intro b hb
  have hne : b ≠ 61 := fun heq => h (heq ▸ hb)
  simpa using hne

/-- And what stands behind the `=` is the value. -/
lemma varValue_envGen {key : Bytes} (h : 61 ∉ key) (value : Bytes) :
    varValue (envGen key value) = value := by
  have hall : ∀ b ∈ key, (b != 61) = true := by
    intro b hb
    have hne : b ≠ 61 := fun heq => h (heq ▸ hb)
    simpa using hne
  rw [varValue, envGen_eq, List.dropWhile_append_of_pos hall]
  rfl

/-- The headers that are passed on. -/
def passedOn (cfg : Config) (host : Option ℕ) (ls : List HeaderLine) : List (Bytes × Bytes) :=
  (ls.filterMap HeaderLine.pair).filter fun p => p.1 ∉ keptNames cfg host

section

variable {cfg : Config} {host : Option ℕ} {ls : List HeaderLine}

lemma mem_headerVars {v : Bytes} :
    v ∈ (ls.filterMap HeaderLine.pair).flatMap (headerVars cfg host) ↔
      ∃ p ∈ passedOn cfg host ls, headerVar p = v := by
  rw [List.mem_flatMap, passedOn]
  simp only [List.mem_filter, decide_eq_true_eq, and_assoc]
  refine exists_congr fun p => and_congr_right fun _ => ?_
  rw [headerVars]
  split_ifs with hkept href
  · exact iff_of_false List.not_mem_nil fun h => h.1 hkept
  · simp [hkept, eq_comm]
  · simp [hkept, eq_comm]

/-- Without `Referer` each is passed on once. -/
lemma flatMap_headerVars (h : ∀ p ∈ passedOn cfg host ls, p.1 ≠ str "REFERER") :
    (ls.filterMap HeaderLine.pair).flatMap (headerVars cfg host)
      = (passedOn cfg host ls).map headerVar := by
  rw [passedOn] at h ⊢
  generalize ls.filterMap HeaderLine.pair = ps at h ⊢
  induction ps with
  | nil => rfl
  | cons p ps ih =>
      rw [List.flatMap_cons, headerVars]
      by_cases hkept : p.1 ∈ keptNames cfg host
      · rw [List.filter_cons_of_neg (by simpa using hkept)] at h ⊢
        rw [if_pos hkept, List.nil_append, ih h]
      · rw [List.filter_cons_of_pos (by simpa using hkept)] at h ⊢
        rw [if_neg hkept, if_neg (h p List.mem_cons_self), List.map_cons, List.singleton_append,
          ih fun q hq => h q (List.mem_cons_of_mem _ hq)]

/-- `Referer` is passed on twice. -/
lemma not_nodup_of_referer {p : Bytes × Bytes} (hp : p ∈ passedOn cfg host ls)
    (href : p.1 = str "REFERER") :
    ¬(((ls.filterMap HeaderLine.pair).flatMap (headerVars cfg host)).map varName).Nodup := by
  rw [passedOn, List.mem_filter, decide_eq_true_eq] at hp
  intro h
  have htwice : [headerVar p, headerVar p].Sublist
      ((ls.filterMap HeaderLine.pair).flatMap (headerVars cfg host)) := by
    have hvars : headerVars cfg host p = [headerVar p, headerVar p] := by
      rw [headerVars, if_neg hp.2, if_pos href]
    rw [← hvars, List.flatMap_def]
    exact List.sublist_flatten_of_mem (List.mem_map_of_mem hp.1)
  have hpair := h.sublist (htwice.map varName)
  simp at hpair

end

/-- The names of the variables of the request. -/
def ownNames : List Bytes :=
  ["REQUEST_METHOD", "HTTP_HOST", "SERVER_ADDR", "SERVER_PROTOCOL", "REQUEST_URI", "PATH_INFO",
    "PATH_TRANSLATED", "SCRIPT_NAME", "QUERY_STRING", "REMOTE_ADDR", "REMOTE_PORT",
    "CONTENT_TYPE", "CONTENT_LENGTH"].map str

/-- `complete_env` adds some of them in order. -/
lemma ownNames_sublist (cfg : Config) (r : Request) :
    ((completeEnvVars cfg r).map Prod.fst).Sublist ownNames := by
  have hgiven (key : String) (value : Option Bytes) :
      ((value.map fun v => (str key, v)).toList.map Prod.fst).Sublist [str key] := by
    cases value with
    | none => exact List.nil_sublist _
    | some v => exact List.Sublist.refl _
  have hpost : ((if r.method = .post then
        [(str "CONTENT_TYPE", (r.contentType.map r.streamString).getD cfg.defaultType)]
          ++ ((r.contentLength.map r.streamString).map fun v => (str "CONTENT_LENGTH", v)).toList
      else []).map Prod.fst).Sublist ([str "CONTENT_TYPE"] ++ [str "CONTENT_LENGTH"]) := by
    split_ifs
    · rw [List.map_append]
      exact (List.Sublist.refl _).append (hgiven _ _)
    · exact List.nil_sublist _
  simp only [completeEnvVars, List.map_append]
  exact (((((((((List.Sublist.refl [str "REQUEST_METHOD"]).append (hgiven _ _)).append
    (List.Sublist.refl [str "SERVER_ADDR", str "SERVER_PROTOCOL", str "REQUEST_URI"])).append
    (hgiven _ _)).append (hgiven _ _)).append (List.Sublist.refl [str "SCRIPT_NAME"])).append
    (hgiven _ _)).append (List.Sublist.refl [str "REMOTE_ADDR", str "REMOTE_PORT"])).append hpost)

lemma ownNames_nodup : ownNames.Nodup := by decide

lemma ownNames_plain : ∀ key ∈ ownNames, 61 ∉ key := by decide

/-- Only the host is named like a header. -/
lemma ownNames_http : ∀ key ∈ ownNames, str "HTTP_" <+: key → key = str "HTTP_HOST" := by
  decide

section

variable {cfg : Config} {r : Request}

lemma mem_ownNames {p : Bytes × Bytes} (hp : p ∈ completeEnvVars cfg r) : p.1 ∈ ownNames :=
  (ownNames_sublist cfg r).subset (List.mem_map_of_mem hp)

/-- The names of what `complete_env` adds. -/
lemma map_varName_own :
    ((completeEnvVars cfg r).map fun p => envGen p.1 p.2).map varName
      = (completeEnvVars cfg r).map Prod.fst := by
  rw [List.map_map]
  refine List.map_congr_left fun p hp => ?_
  rw [Function.comp_apply, varName_envGen, varName_eq_self (ownNames_plain _ (mem_ownNames hp))]

/-- It adds the host if there is one. -/
lemma host_mem_iff (cfg : Config) (r : Request) (v : Bytes) :
    (str "HTTP_HOST", v) ∈ completeEnvVars cfg r ↔ r.headerHost.map r.streamString = some v := by
  by_cases hpost : r.method = .post
  · simp +decide [completeEnvVars, hpost]
  · simp +decide [completeEnvVars, hpost]

end

/-! ### A request for a script -/

/-- Nothing of the header is known yet. -/
structure Fresh (r : Request) : Prop where
  get : ∀ f : HeaderField, f.get r = none
  keepalive : r.keepalive = .inactive
  ranges : r.ranges = []

/-- `sanitize_request` leaves a request so. -/
lemma sanitizeRequest_fresh (cfg : Config) (newReq : Bool) (r : Request) :
    Fresh (sanitizeRequest cfg newReq r) :=
  ⟨fun f => by cases f <;> rfl, rfl, rfl⟩

/-- An accepted request line leaves no header met, and the environment empty. -/
lemma processLogline_unmet {cfg : Config} {env : Env} {c d : Conn} (h : Fresh c.req)
    (heq : processLogline cfg env c = (true, d)) :
    EnvHolds cfg.commonCgiEnv.length d.req [] ∧ ∀ key, Unmet d.req.headerHost key d.req := by
  obtain ⟨f, v, rfl⟩ := processLogline_accepted heq
  have hget (field : HeaderField) (hhost : field ≠ .headerHost) :
      field.get ((f.stored c).upd (Request.versionStored cfg v)).req = field.get c.req := by
    rw [LineFront.stored]
    cases f.host <;> cases field <;> first
      | rfl
      | exact absurd rfl hhost
  have hka : (f.stored c).req.keepalive = c.req.keepalive := by
    rw [LineFront.stored]
    cases f.host <;> rfl
  have hranges : (f.stored c).req.ranges = c.req.ranges := by
    rw [LineFront.stored]
    cases f.host <;> rfl
  refine ⟨⟨rfl, by simp⟩, fun key => ⟨fun field _ => ?_, fun _ => ?_, fun _ => ?_⟩⟩
  · split_ifs with hhost
    · rw [hhost]
      rfl
    · rw [hget field hhost, h.get field]
  · show (if v = .http11 then KaStatus.active else (f.stored c).req.keepalive) ≠ .stopped
    rw [hka, h.keepalive]
    split_ifs <;> decide
  · exact hranges.trans h.ranges

/-- The request is handed on to its script as the header has left it. -/
structure HandedOn (r r' : Request) : Prop where
  env : r'.cgiEnv = r.cgiEnv
  index : r'.cgiEnvIndex = r.cgiEnvIndex
  host : r'.headerHost = r.headerHost

/-- `translate_uri` hands a request on. -/
lemma Translates.handedOn {r r' : Request} (h : Translates r r') : HandedOn r r' := by
  obtain ⟨_, _, _, _, _, rfl⟩ := h
  exact ⟨rfl, rfl, rfl⟩

/-- The environment has no name twice, and no host but the one of the request, which is the one of
the request line, or else of the first `Host` header. -/
structure UniqueNames (host : Option ℕ) (ls : List HeaderLine) (r : Request) : Prop where
  nodup : (r.environment.map varName).Nodup
  hostValue : ∀ p ∈ r.environment, varName p = str "HTTP_HOST" →
    r.headerHost.map r.streamString = some (varValue p)
  precedence : r.headerHost = host.or (ls.findSome? (HeaderLine.normalValue (str "HOST")))

/-- No `Referer` is passed on, and no `Host`; names that are passed on differ up to their first
`=`; and the names of the common variables differ from each other and from all others. -/
structure PlainNames (cfg : Config) (host : Option ℕ) (ls : List HeaderLine) (r : Request) :
    Prop where
  noReferer : ∀ p ∈ passedOn cfg host ls, p.1 ≠ str "REFERER"
  noHost : ∀ p ∈ passedOn cfg host ls, varName p.1 ≠ str "HOST"
  nodup : ((passedOn cfg host ls).map fun p => varName p.1).Nodup
  common : (cfg.commonCgiEnv.map varName).Nodup
  apart : ∀ q ∈ cfg.commonCgiEnv, varName q ≠ str "HTTP_HOST" ∧
    (∀ p ∈ passedOn cfg host ls, varName q ≠ str "HTTP_" ++ varName p.1) ∧
    ∀ p ∈ completeEnvVars cfg r, varName q ≠ p.1

section

variable {cfg : Config} {host : Option ℕ} {ls : List HeaderLine} {r r' : Request}

/-- The script is started with the common variables, those of the header, and those of the
request. -/
structure Started (cfg : Config) (host : Option ℕ) (ls : List HeaderLine) (r r' : Request) :
    Prop where
  environment : r'.environment = cfg.commonCgiEnv
    ++ (ls.filterMap HeaderLine.pair).flatMap (headerVars cfg host)
    ++ (completeEnvVars cfg r).map fun p => envGen p.1 p.2
  hostString : r'.headerHost.map r'.streamString = r.headerHost.map r.streamString
  precedence : r'.headerHost = host.or (ls.findSome? (HeaderLine.normalValue (str "HOST")))

namespace Started

variable (h : Started cfg host ls r r')

include h

lemma names : r'.environment.map varName = cfg.commonCgiEnv.map varName
    ++ ((ls.filterMap HeaderLine.pair).flatMap (headerVars cfg host)).map varName
    ++ (completeEnvVars cfg r).map Prod.fst := by
  rw [h.environment, List.map_append, List.map_append, map_varName_own]

/-- A variable that is named like the host is there twice, if the host is there. -/
lemma name_ne_host (hunique : UniqueNames host ls r') {v : Bytes}
    (hv : v ∈ cfg.commonCgiEnv ++ (ls.filterMap HeaderLine.pair).flatMap (headerVars cfg host)) :
    varName v ≠ str "HTTP_HOST" := by
  intro hname
  have hmem : v ∈ r'.environment := h.environment ▸ List.mem_append_left _ hv
  have hvalue := hunique.hostValue v hmem hname
  rw [h.hostString, ← host_mem_iff cfg r] at hvalue
  have hnodup := hunique.nodup
  rw [h.names, ← List.map_append, List.nodup_append] at hnodup
  exact hnodup.2.2 _ (List.mem_map_of_mem hv) _ (List.mem_map_of_mem hvalue) hname

lemma plain_of_unique (hunique : UniqueNames host ls r') : PlainNames cfg host ls r := by
  have hnodup := hunique.nodup
  rw [h.names, List.nodup_append, List.nodup_append] at hnodup
  obtain ⟨⟨hcommon, hstored, hapart⟩, -, hown⟩ := hnodup
  have hreferer : ∀ p ∈ passedOn cfg host ls, p.1 ≠ str "REFERER" :=
    fun p hp href => not_nodup_of_referer hp href hstored
  refine ⟨hreferer, fun p hp hname => ?_, ?_, hcommon, fun q hq => ⟨?_, fun p hp heq => ?_,
    fun p hp heq => ?_⟩⟩
  · refine h.name_ne_host hunique (List.mem_append_right _ (mem_headerVars.mpr ⟨p, hp, rfl⟩)) ?_
    rw [varName_headerVar, hname]
    rfl
  · rw [flatMap_headerVars hreferer, List.map_map] at hstored
    refine List.Nodup.of_map (str "HTTP_" ++ ·) ?_
    rw [List.map_map]
    refine (List.map_congr_left fun p _ => ?_) ▸ hstored
    exact varName_headerVar p
  · exact h.name_ne_host hunique (List.mem_append_left _ hq)
  · refine hapart _ (List.mem_map_of_mem hq) _
      (List.mem_map_of_mem (mem_headerVars.mpr ⟨p, hp, rfl⟩)) ?_
    rw [heq, varName_headerVar]
  · exact hown _ (List.mem_append_left _ (List.mem_map_of_mem hq)) _ (List.mem_map_of_mem hp) heq

lemma unique_of_plain (hplain : PlainNames cfg host ls r) : UniqueNames host ls r' := by
  have hheader {v : Bytes}
      (hv : v ∈ (ls.filterMap HeaderLine.pair).flatMap (headerVars cfg host)) :
      ∃ p ∈ passedOn cfg host ls, varName v = str "HTTP_" ++ varName p.1 := by
    obtain ⟨p, hp, rfl⟩ := mem_headerVars.mp hv
    exact ⟨p, hp, varName_headerVar p⟩
  have hnoHost {p : Bytes × Bytes} (hp : p ∈ passedOn cfg host ls) :
      str "HTTP_" ++ varName p.1 ≠ str "HTTP_HOST" := fun heq =>
    hplain.noHost p hp (List.append_cancel_left heq)
  refine ⟨?_, fun v hv hname => ?_, h.precedence⟩
  · rw [h.names, List.nodup_append, List.nodup_append]
    refine ⟨⟨hplain.common, ?_, fun a ha b hb heq => ?_⟩,
      ownNames_nodup.sublist (ownNames_sublist cfg r), fun a ha b hb heq => ?_⟩
    · rw [flatMap_headerVars hplain.noReferer, List.map_map]
      have hinj := hplain.nodup.map (f := (str "HTTP_" ++ ·)) fun _ _ => List.append_cancel_left
      rw [List.map_map] at hinj
      refine (List.map_congr_left fun p _ => ?_) ▸ hinj
      exact (varName_headerVar p).symm
    · obtain ⟨q, hq, rfl⟩ := List.mem_map.mp ha
      obtain ⟨v, hv, rfl⟩ := List.mem_map.mp hb
      obtain ⟨p, hp, hv⟩ := hheader hv
      exact (hplain.apart q hq).2.1 p hp (heq.trans hv)
    · obtain ⟨k, hk, rfl⟩ := List.mem_map.mp hb
      rcases List.mem_append.mp ha with ha | ha
      · obtain ⟨q, hq, rfl⟩ := List.mem_map.mp ha
        exact (hplain.apart q hq).2.2 k hk heq
      · obtain ⟨v, hv, rfl⟩ := List.mem_map.mp ha
        obtain ⟨p, hp, hv⟩ := hheader hv
        -- only the host is named like a header
        have hhostName : k.1 = str "HTTP_HOST" := by
          refine ownNames_http _ (mem_ownNames hk) ?_
          rw [← heq, hv]
          exact List.prefix_append _ _
        exact hnoHost hp (hv.symm.trans (heq.trans hhostName))
  · rw [h.environment, List.append_assoc, List.mem_append, List.mem_append] at hv
    rcases hv with hv | hv | hv
    · exact absurd hname (hplain.apart v hv).1
    · obtain ⟨p, hp, hv⟩ := hheader hv
      exact absurd (hv.symm.trans hname) (hnoHost hp)
    · obtain ⟨k, hk, rfl⟩ := List.mem_map.mp hv
      have hkey := ownNames_plain _ (mem_ownNames hk)
      rw [varName_envGen, varName_eq_self hkey] at hname
      rw [varValue_envGen hkey, h.hostString, ← host_mem_iff cfg r, ← hname]
      exact hk

end Started

end

/-- The request behind its request line. -/
def afterLine (line : String) : Conn := (processLogline {} {} (requestWithLine line)).2

/-- The request behind its header. -/
def afterHeader (line : String) (ls : List HeaderLine) : Conn :=
  (optionLines {} ls (afterLine line)).getD (afterLine line)

/-- The request with the environment of its script. -/
def scriptStart (line : String) (ls : List HeaderLine) : Request :=
  (completeEnv {} (afterHeader line ls).req).2

/-- A result of a function that succeeds. -/
lemma eq_pair_of_fst {α : Type*} {res : Bool × α} (h : res.1 = true) : res = (true, res.2) :=
  Prod.ext h rfl

end Yabwf
