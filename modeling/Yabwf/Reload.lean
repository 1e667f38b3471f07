import Yabwf.Alias
import Yabwf.Cgi
import Yabwf.Lengths

/-!
Reading the configuration, at the start of the server and again on `SIGHUP`.

* `Directive`, `applyCommand`, `readConfigFiles`: the directives of `boa.conf` that fill the
  tables, the common CGI environment, and the variables that these depend on. A
  configuration that makes the server exit leaves nothing.
* `createCommonEnv`, `startServer`, `sighupRun`, `reloaded`: the start in `main`, and the
  reloads behind it.
* `ReloadsAsFresh`: reloading leaves what a fresh start would, with every `CGIEnv` directive
  in the environment; `reload_fresh_iff`: exactly when.
-/

namespace Yabwf

/-! ### Directives -/

/-- The strings that the directives set. -/
inductive StringVar
  | serverName | serverAdmin | serverRoot | documentRoot | vhostRoot | defaultType
  | cgiPath | cgiLdLibraryPath
  deriving DecidableEq, Repr

/-- The variables of `config.c` that the tables, the environment and the checks of
`read_config_files` depend on. -/
structure Settings where
  string : StringVar → Option Bytes := fun _ => none
  serverPort : ℤ := 0
  singlePostLimit : ℤ := 1024 * 1024
  virtualhost : Bool := false

/-- A line of the configuration file, by the action of its command. -/
inductive Directive
  /-- `c_set_string`. -/
  | setString (var : StringVar) (value : Bytes)
  /-- `c_set_int` on `server_port`. -/
  | port (value : ℤ)
  /-- `c_set_int` on `single_post_limit`. -/
  | singlePostLimit (value : ℤ)
  /-- `c_set_unity` on `virtualhost`. -/
  | virtualHost
  /-- `c_add_mime_types_file`, with the extensions and types that the file lists. -/
  | mimeTypes (entries : List (Bytes × Bytes))
  /-- `c_add_mime_type`. -/
  | addType (type : Bytes) (extension : Option Bytes)
  /-- `c_add_alias`. -/
  | addAlias (type : AliasType) (fakename : Bytes) (realname : Option Bytes)
  /-- `c_add_access`. -/
  | addAccess (type : AccessType) (pattern : Bytes)
  /-- `c_add_cgi_env`. -/
  | cgiEnv (key : Bytes) (value : Option Bytes)
  /-- A command that sets another variable, or reports that its argument is no number. -/
  | other
  /-- A line that makes the server exit: an unknown keyword, a missing argument, a list of
  types that cannot be opened. -/
  | fatal

/-- A configuration, line by line. -/
abbrev Configuration := List Directive

/-- What a directive does to the variables. -/
def Settings.apply (v : Settings) : Directive → Settings
  | .setString var value => { v with string := Function.update v.string var (some value) }
  | .port value => { v with serverPort := value }
  | .singlePostLimit value => { v with singlePostLimit := value }
  | .virtualHost => { v with virtualhost := true }
  | _ => v

/-- The variables that a configuration leaves. -/
def settingsOf (c : Configuration) (v : Settings) : Settings := c.foldl Settings.apply v

/-- The entry of a directive in the environment. -/
def Directive.entries : Directive → List Bytes
  | .cgiEnv key value => [envGen key (value.getD [])]
  | _ => []

/-- The entries of the `CGIEnv` directives. -/
def entriesOf (c : Configuration) : List Bytes := c.flatMap Directive.entries

/-! ### The tables -/

/-- `mime_hashtable`: the chain of each bucket. -/
abbrev MimeTable := ℕ → List (Bytes × Bytes)

/-- `MIME_HASHTABLE_SIZE`. -/
def mimeHashtableSize : ℕ := 47

/-- What the configuration does not say: compile time options, the hash function that they
select, the name of the host, and the variables as the command line leaves them. -/
structure Site where
  accessControl : Bool := true
  /-- `USE_NCSA_CGI_ENV` is defined. -/
  ncsaCgiEnv : Bool := false
  boaHash : Bytes → ℕ := fun _ => 0
  hostName : Option Bytes := none
  init : Settings := {}

/-- The tables that the configuration fills. -/
structure Tables where
  aliases : AliasTable := fun _ => []
  mimeTypes : MimeTable := fun _ => []
  accessNodes : List (Bytes × AccessType) := []

/-- What the configuration files leave in the server; `common_cgi_env` with the number of its
entries. -/
structure ServerState where
  settings : Settings
  tables : Tables := {}
  commonCgiEnv : List Bytes := []

section

variable (site : Site)

/-- `add_mime_type`, which makes the server exit on an empty string. -/
def addMimeType (t : MimeTable) (extension type : Bytes) : Option MimeTable :=
  if extension = [] ∨ type = [] then none
  else
    let hash := site.boaHash extension % mimeHashtableSize
    if (t hash).any fun old => old.1 == extension then some t
    else some (Function.update t hash (t hash ++ [(extension, type)]))

/-- `add_to_common_env`. -/
def addToCommonEnv (key : Bytes) (value : Option Bytes) (s : ServerState) :
    Option ServerState :=
  let env := s.commonCgiEnv ++ [envGen key (value.getD [])]
  if cgiEnvMax < env.length then none else some { s with commonCgiEnv := env }

/-- What a directive does to the tables. -/
def Tables.apply (t : Tables) : Directive → Option Tables
  | .mimeTypes entries =>
      (entries.foldlM (fun m e => addMimeType site m e.1 e.2) t.mimeTypes).map fun m =>
        { t with mimeTypes := m }
  | .addType type extension =>
      (addMimeType site t.mimeTypes (extension.getD []) type).map fun m =>
        { t with mimeTypes := m }
  | .addAlias type fakename realname =>
      if fakename = [] ∨ realname.getD [] = [] then none
      else some { t with aliases := addAlias t.aliases ⟨fakename, realname.getD [], type⟩ }
  | .addAccess type pattern =>
      some (if site.accessControl then
        { t with accessNodes := t.accessNodes ++ [(pattern, type)] } else t)
  | .fatal => none
  | _ => some t

/-- `apply_command`. -/
def applyCommand (s : ServerState) (d : Directive) : Option ServerState :=
  match d with
  | .cgiEnv key value => addToCommonEnv key value s
  | d => (s.tables.apply site d).map fun t => { s with settings := s.settings.apply d, tables := t }

/-- The end of `read_config_files`: the name of the server is looked up if it is not set, and
the variables are checked. -/
def fixSettings (v : Settings) : Option Settings :=
  match (v.string .serverName).or site.hostName with
  | none => none
  | some name =>
      if v.singlePostLimit < 0 then none
      else if (v.string .vhostRoot).isSome ∧ v.virtualhost then none
      else if (v.string .vhostRoot).isSome ∧ (v.string .documentRoot).isSome then none
      else if v.string .defaultType = none then none
      else some { v with string := Function.update v.string .serverName (some name) }

/-- `read_config_files`, with `access_init` in front. -/
def readConfigFiles (c : Configuration) (s : ServerState) : Option ServerState :=
  let tables :=
    if site.accessControl then { s.tables with accessNodes := [] } else s.tables
  (c.foldlM (applyCommand site) { s with tables := tables }).bind fun s =>
    (fixSettings site s.settings).map fun v => { s with settings := v }

/-- The variables that `create_common_env` sets. -/
def ownVariables (v : Settings) : List Bytes :=
  [envGen (str "PATH") ((v.string .cgiPath).getD (str "/bin:/sbin:/usr/bin:/usr/sbin")),
    envGen (str "SERVER_SOFTWARE") serverVersion,
    envGen (str "SERVER_NAME") ((v.string .serverName).getD []),
    envGen (str "GATEWAY_INTERFACE") (str "CGI/1.1"),
    envGen (str "SERVER_PORT") (simpleItoa (v.serverPort % 2 ^ 32).toNat),
    envGen (str "LD_LIBRARY_PATH") ((v.string .cgiLdLibraryPath).getD (str "/lib:/usr/lib"))] ++
  (if site.ncsaCgiEnv then
    [envGen (str "DOCUMENT_ROOT") ((v.string .documentRoot).getD []),
      envGen (str "SERVER_ROOT") ((v.string .serverRoot).getD [])]
  else []) ++
  [envGen (str "SERVER_ADMIN") ((v.string .serverAdmin).getD [])]

/-- `create_common_env`, which allocates a new environment. -/
def createCommonEnv (s : ServerState) : ServerState :=
  { s with commonCgiEnv := ownVariables site s.settings }

/-- The start of the server in `main`. -/
def startServer (c : Configuration) : Option ServerState :=
  (readConfigFiles site c { settings := site.init }).map (createCommonEnv site)

/-- `sighup_run`. The common environment is not cleared. -/
def sighupRun (s : ServerState) (c : Configuration) : Option ServerState :=
  readConfigFiles site c
    { s with tables := { s.tables with aliases := fun _ => [], mimeTypes := fun _ => [] } }

/-- The server is started with one configuration, and reloads the others. -/
def reloaded (c : Configuration) (cs : List Configuration) : Option ServerState :=
  (startServer site c).bind fun s => cs.foldlM (sighupRun site) s

/-! ### What a reload should leave -/

/-- The last of the configurations. -/
def lastOf (c : Configuration) (cs : List Configuration) : Configuration := cs.getLastD c

/-- Reloading leaves the tables and the environment of a fresh start with the last
configuration, and the environment holds the variables of the server and an entry for each
`CGIEnv` directive. -/
def ReloadsAsFresh (c : Configuration) (cs : List Configuration) : Prop :=
  ∃ s f, reloaded site c cs = some s ∧ startServer site (lastOf c cs) = some f ∧
    s.tables.aliases = f.tables.aliases ∧ s.tables.mimeTypes = f.tables.mimeTypes ∧
    s.tables.accessNodes = f.tables.accessNodes ∧ s.commonCgiEnv = f.commonCgiEnv ∧
    (ownVariables site f.settings ++ entriesOf (lastOf c cs)).Perm s.commonCgiEnv ∧
    (ownVariables site f.settings ++ entriesOf (lastOf c cs)).Perm f.commonCgiEnv

/-- The variables of the server get the same values from both. -/
def SameVariables (v w : Settings) : Prop :=
  (v.string .cgiPath).getD (str "/bin:/sbin:/usr/bin:/usr/sbin")
      = (w.string .cgiPath).getD (str "/bin:/sbin:/usr/bin:/usr/sbin") ∧
    (v.string .serverName).or site.hostName = (w.string .serverName).or site.hostName ∧
    v.serverPort % 2 ^ 32 = w.serverPort % 2 ^ 32 ∧
    (v.string .cgiLdLibraryPath).getD (str "/lib:/usr/lib")
      = (w.string .cgiLdLibraryPath).getD (str "/lib:/usr/lib") ∧
    (site.ncsaCgiEnv = true →
      (v.string .documentRoot).getD [] = (w.string .documentRoot).getD [] ∧
        (v.string .serverRoot).getD [] = (w.string .serverRoot).getD []) ∧
    (v.string .serverAdmin).getD [] = (w.string .serverAdmin).getD []

/-- `VHostRoot` is not set together with `VirtualHost` or `DocumentRoot`. -/
def Compatible (v : Settings) : Prop :=
  (v.string .vhostRoot).isSome → v.virtualhost = false ∧ v.string .documentRoot = none

/-- No configuration that is reloaded has a `CGIEnv` directive, nor has the last one; the
first and the last configuration give the variables of the server the same values; and no
`VHostRoot` meets a `VirtualHost` or `DocumentRoot` of another configuration. -/
structure ReloadsCleanly (c : Configuration) (cs : List Configuration) : Prop where
  noEntries : ∀ d ∈ lastOf c cs :: cs, entriesOf d = []
  same : SameVariables site (settingsOf c site.init) (settingsOf (lastOf c cs) site.init)
  compatible : Compatible (settingsOf (c :: cs).flatten site.init)

end

/-! ### One directive -/

variable {site : Site}

/-- The tables after a directive depend on the tables before it only, the variables on the
variables, and the environment grows by its entry. -/
lemma applyCommand_eq_some {s s' : ServerState} {d : Directive}
    (h : applyCommand site s d = some s') :
    s'.settings = s.settings.apply d ∧ s.tables.apply site d = some s'.tables ∧
      s'.commonCgiEnv = s.commonCgiEnv ++ d.entries := by
  cases d with
  | cgiEnv key value =>
      simp only [applyCommand, addToCommonEnv] at h
      split_ifs at h
      obtain rfl := Option.some.inj h
      exact ⟨rfl, rfl, rfl⟩
  | _ =>
      simp only [applyCommand, Option.map_eq_some_iff] at h
      obtain ⟨t, ht, rfl⟩ := h
      exact ⟨rfl, ht, (List.append_nil _).symm⟩

lemma addMimeType_isSome (m : MimeTable) (extension type : Bytes) :
    (addMimeType site m extension type).isSome = true ↔ ¬(extension = [] ∨ type = []) := by
  simp only [addMimeType]
  split_ifs with hempty hold
  · exact iff_of_false nofun (not_not.mpr hempty)
  · exact iff_of_true rfl hempty
  · exact iff_of_true rfl hempty

lemma foldlM_addMimeType_isSome (entries : List (Bytes × Bytes)) (m : MimeTable) :
    (entries.foldlM (fun m e => addMimeType site m e.1 e.2) m).isSome = true ↔
      ∀ e ∈ entries, ¬(e.1 = [] ∨ e.2 = []) := by
  induction entries generalizing m with
  | nil => exact iff_of_true rfl nofun
  | cons e entries ih =>
      have he : (addMimeType site m e.1 e.2).isSome = true ↔ _ := addMimeType_isSome m e.1 e.2
      rw [List.foldlM_cons, List.forall_mem_cons, ← he]
      cases addMimeType site m e.1 e.2 with
      | none => exact iff_of_false nofun fun h => nomatch h.1
      | some m' => exact (ih m').trans (and_iff_right rfl).symm

/-- Whether a directive can be applied does not depend on the tables. -/
lemma Tables.apply_isSome (t t' : Tables) (d : Directive) :
    (t.apply site d).isSome = (t'.apply site d).isSome := by
  cases d with
  | mimeTypes entries =>
      simp only [Tables.apply, Option.isSome_map]
      exact Bool.eq_iff_iff.mpr ((foldlM_addMimeType_isSome entries t.mimeTypes).trans
        (foldlM_addMimeType_isSome entries t'.mimeTypes).symm)
  | addType type extension =>
      simp only [Tables.apply, Option.isSome_map]
      exact Bool.eq_iff_iff.mpr ((addMimeType_isSome t.mimeTypes _ _).trans
        (addMimeType_isSome t'.mimeTypes _ _).symm)
  | addAlias type fakename realname =>
      simp only [Tables.apply]
      split_ifs <;> rfl
  | _ => rfl

/-- A directive that the server accepts in one state it accepts in any other one, unless the
environment is full. -/
lemma applyCommand_isSome {s t : ServerState} {d : Directive}
    (h : (applyCommand site t d).isSome)
    (henv : s.commonCgiEnv.length + d.entries.length ≤ cgiEnvMax) :
    (applyCommand site s d).isSome := by
  cases d with
  | cgiEnv key value =>
      have hfull : ¬cgiEnvMax < (s.commonCgiEnv ++ [envGen key (value.getD [])]).length := by
        rw [List.length_append]
        exact not_lt.mpr henv
      simp only [applyCommand, addToCommonEnv]
      rw [if_neg hfull]
      rfl
  | _ =>
      simp only [applyCommand, Option.isSome_map] at h ⊢
      rwa [Tables.apply_isSome s.tables t.tables]

/-! ### A configuration -/

lemma foldlM_applyCommand_eq_some {c : Configuration} {s s' : ServerState}
    (h : c.foldlM (applyCommand site) s = some s') :
    s'.settings = settingsOf c s.settings ∧
      c.foldlM (Tables.apply site) s.tables = some s'.tables ∧
      s'.commonCgiEnv = s.commonCgiEnv ++ entriesOf c := by
  induction c generalizing s with
  | nil =>
      obtain rfl := Option.some.inj h
      exact ⟨rfl, rfl, (List.append_nil _).symm⟩
  | cons d c ih =>
      rw [List.foldlM_cons] at h
      obtain ⟨t, hd, hc⟩ := Option.bind_eq_some_iff.mp h
      obtain ⟨hset, htab, henv⟩ := applyCommand_eq_some hd
      obtain ⟨hset', htab', henv'⟩ := ih hc
      refine ⟨by rw [hset', hset]; rfl, ?_, ?_⟩
      · rw [List.foldlM_cons, htab]
        exact htab'
      · rw [henv', henv, List.append_assoc]
        rfl

lemma foldlM_applyCommand_isSome {c : Configuration} {s t : ServerState}
    (h : (c.foldlM (applyCommand site) t).isSome)
    (henv : s.commonCgiEnv.length + (entriesOf c).length ≤ cgiEnvMax) :
    (c.foldlM (applyCommand site) s).isSome := by
  induction c generalizing s t with
  | nil => rfl
  | cons d c ih =>
      rw [List.foldlM_cons] at h ⊢
      obtain ⟨t', ht⟩ : ∃ t', applyCommand site t d = some t' := by
        cases hd : applyCommand site t d with
        | none => rw [hd] at h; cases h
        | some t' => exact ⟨t', rfl⟩
      rw [entriesOf, List.flatMap_cons, List.length_append, ← Nat.add_assoc] at henv
      obtain ⟨s', hs⟩ := Option.isSome_iff_exists.mp (applyCommand_isSome (s := s)
        (Option.isSome_iff_exists.mpr ⟨t', ht⟩) (le_trans (Nat.le_add_right _ _) henv))
      rw [ht] at h
      rw [hs]
      refine ih h ?_
      rw [(applyCommand_eq_some hs).2.2, List.length_append]
      exact henv

/-- Giving the server a name. -/
def Settings.named (v : Settings) (name : Bytes) : Settings :=
  { v with string := Function.update v.string .serverName (some name) }

/-- The checks of `read_config_files`. -/
lemma fixSettings_eq_some_iff {v w : Settings} :
    fixSettings site v = some w ↔
      ∃ name, (v.string .serverName).or site.hostName = some name ∧ 0 ≤ v.singlePostLimit ∧
        Compatible v ∧ v.string .defaultType ≠ none ∧ w = v.named name := by
  unfold fixSettings
  cases (v.string .serverName).or site.hostName with
  | none => exact iff_of_false nofun fun ⟨_, h, _⟩ => nomatch h
  | some name =>
      dsimp only
      constructor
      · intro h
        split_ifs at h with hlimit hvirtual hroot htype
        refine ⟨name, rfl, not_lt.mp hlimit, fun hv => ⟨?_, ?_⟩, htype, (Option.some.inj h).symm⟩
        · exact Bool.eq_false_iff.mpr fun hvh => hvirtual ⟨hv, hvh⟩
        · exact Option.not_isSome_iff_eq_none.mp fun hd => hroot ⟨hv, hd⟩
      · rintro ⟨name', hname, hlimit, hcompat, htype, rfl⟩
        obtain rfl := Option.some.inj hname
        rw [if_neg (not_lt.mpr hlimit), if_neg, if_neg, if_neg htype]
        · rfl
        · exact fun ⟨hv, hd⟩ => by simp [(hcompat hv).2] at hd
        · exact fun ⟨hv, hvh⟩ => by simp [(hcompat hv).1] at hvh

/-- The tables without the access rules, where there are any. -/
def accessInit (site : Site) (t : Tables) : Tables :=
  if site.accessControl then { t with accessNodes := [] } else t

lemma readConfigFiles_eq_some {c : Configuration} {s s' : ServerState}
    (h : readConfigFiles site c s = some s') :
    fixSettings site (settingsOf c s.settings) = some s'.settings ∧
      c.foldlM (Tables.apply site) (accessInit site s.tables) = some s'.tables ∧
      s'.commonCgiEnv = s.commonCgiEnv ++ entriesOf c := by
  obtain ⟨t, hfold, hfix⟩ := Option.bind_eq_some_iff.mp h
  obtain ⟨v, hv, rfl⟩ := Option.map_eq_some_iff.mp hfix
  obtain ⟨hset, htab, henv⟩ := foldlM_applyCommand_eq_some hfold
  rw [hset] at hv
  exact ⟨hv, htab, henv⟩

lemma readConfigFiles_isSome {c : Configuration} {s t : ServerState}
    (h : (readConfigFiles site c t).isSome)
    (henv : s.commonCgiEnv.length + (entriesOf c).length ≤ cgiEnvMax)
    (hfix : (fixSettings site (settingsOf c s.settings)).isSome) :
    (readConfigFiles site c s).isSome := by
  obtain ⟨t', ht⟩ := Option.isSome_iff_exists.mp h
  obtain ⟨u, hu, -⟩ := Option.bind_eq_some_iff.mp ht
  obtain ⟨s', hs⟩ := Option.isSome_iff_exists.mp (foldlM_applyCommand_isSome
    (s := { s with tables := accessInit site s.tables }) (Option.isSome_iff_exists.mpr ⟨u, hu⟩)
    henv)
  obtain ⟨v, hv⟩ := Option.isSome_iff_exists.mp hfix
  have hset := (foldlM_applyCommand_eq_some hs).1
  refine Option.isSome_iff_exists.mpr ⟨{ s' with settings := v }, ?_⟩
  refine Option.bind_eq_some_iff.mpr ⟨s', hs, ?_⟩
  rw [hset, hv]
  rfl

/-! ### The variables -/

/-- What the checks on `VHostRoot` look at. -/
def Settings.roots (v : Settings) : Option Bytes × Bool × Option Bytes :=
  (v.string .vhostRoot, v.virtualhost, v.string .documentRoot)

lemma compatible_congr {v w : Settings} (h : v.roots = w.roots) : Compatible v ↔ Compatible w := by
  obtain ⟨hv, hrest⟩ := Prod.mk.inj h
  obtain ⟨hvirtual, hroot⟩ := Prod.mk.inj hrest
  rw [Compatible, Compatible, hv, hvirtual, hroot]

lemma roots_apply_congr {v w : Settings} (h : v.roots = w.roots) (d : Directive) :
    (v.apply d).roots = (w.apply d).roots := by
  obtain ⟨hv, hrest⟩ := Prod.mk.inj h
  obtain ⟨hvirtual, hroot⟩ := Prod.mk.inj hrest
  cases d with
  | setString var value =>
      cases var <;> simp [Settings.roots, Settings.apply, hv, hvirtual, hroot]
  | virtualHost => simp [Settings.roots, Settings.apply, hv, hroot]
  | _ => exact h

lemma roots_settingsOf_congr {v w : Settings} (h : v.roots = w.roots) (c : Configuration) :
    (settingsOf c v).roots = (settingsOf c w).roots := by
  induction c generalizing v w with
  | nil => exact h
  | cons d c ih => exact ih (roots_apply_congr h d)

lemma string_apply_ne_none {v : Settings} {var : StringVar} (h : v.string var ≠ none)
    (d : Directive) : (v.apply d).string var ≠ none := by
  cases d with
  | setString var' value =>
      rcases eq_or_ne var var' with rfl | hne
      · simp [Settings.apply]
      · simpa [Settings.apply, Function.update_of_ne hne] using h
  | _ => exact h

/-- A string that is set stays set. -/
lemma string_settingsOf_ne_none {v : Settings} {var : StringVar} (h : v.string var ≠ none)
    (c : Configuration) : (settingsOf c v).string var ≠ none := by
  induction c generalizing v with
  | nil => exact h
  | cons d c ih => exact ih (string_apply_ne_none h d)

/-- What has been set together stays set together. -/
lemma compatible_of_settingsOf {v : Settings} (c : Configuration)
    (h : Compatible (settingsOf c v)) : Compatible v := by
  induction c generalizing v with
  | nil => exact h
  | cons d c ih =>
      have hd : Compatible (v.apply d) := ih h
      intro hv
      obtain ⟨hvirtual, hroot⟩ := hd (Option.isSome_iff_ne_none.mpr
        (string_apply_ne_none (Option.isSome_iff_ne_none.mp hv) d))
      refine ⟨?_, ?_⟩
      · cases d <;> first | exact hvirtual | cases hvirtual
      · by_contra hd'
        exact string_apply_ne_none hd' d hroot

lemma limit_settingsOf_congr {v w : Settings} (h : v.singlePostLimit = w.singlePostLimit)
    (c : Configuration) : (settingsOf c v).singlePostLimit = (settingsOf c w).singlePostLimit := by
  induction c generalizing v w with
  | nil => exact h
  | cons d c ih =>
      refine ih ?_
      cases d <;> first | exact h | rfl

/-- A limit is set by the configuration, or it is the one from before. -/
lemma limit_settingsOf (v w : Settings) (c : Configuration) :
    (settingsOf c v).singlePostLimit = (settingsOf c w).singlePostLimit ∨
      (settingsOf c v).singlePostLimit = v.singlePostLimit := by
  induction c generalizing v w with
  | nil => exact .inr rfl
  | cons d c ih =>
      cases d with
      | singlePostLimit value =>
          exact .inl (limit_settingsOf_congr
            (v := { v with singlePostLimit := value }) (w := { w with singlePostLimit := value })
            rfl c)
      | _ => exact ih _ _

lemma length_ownVariables (v : Settings) :
    (ownVariables site v).length = if site.ncsaCgiEnv then 9 else 7 := by
  unfold ownVariables
  split_ifs <;> rfl

lemma envGen_inj {key value value' : Bytes} :
    envGen key value = envGen key value' ↔ value = value' :=
  List.append_right_inj _

/-- The variables of the server tell what they are made of. -/
lemma ownVariables_named_eq_iff {v w : Settings} {name name' : Bytes}
    (hv : (v.string .serverName).or site.hostName = some name)
    (hw : (w.string .serverName).or site.hostName = some name') :
    ownVariables site (v.named name) = ownVariables site (w.named name') ↔
      SameVariables site v w := by
  have hport : simpleItoa (v.serverPort % 2 ^ 32).toNat = simpleItoa (w.serverPort % 2 ^ 32).toNat ↔
      v.serverPort % 2 ^ 32 = w.serverPort % 2 ^ 32 := by
    rw [simpleItoa_eq, simpleItoa_eq, numeral_injective.eq_iff]
    omega
  rw [SameVariables, hv, hw, Option.some_inj, ← hport]
  unfold ownVariables
  cases site.ncsaCgiEnv with
  | true =>
      simp [Settings.named, envGen_inj]
      tauto
  | false =>
      simp [Settings.named, envGen_inj]

/-! ### Starting and reloading -/

/-- Without access control there are no access rules. -/
def NoRules (site : Site) (t : Tables) : Prop := site.accessControl = false → t.accessNodes = []

lemma noRules_apply {t t' : Tables} {d : Directive} (h : t.apply site d = some t')
    (ht : NoRules site t) : NoRules site t' := by
  intro hoff
  have hrules := ht hoff
  cases d with
  | mimeTypes entries =>
      obtain ⟨m, -, rfl⟩ := Option.map_eq_some_iff.mp h
      exact hrules
  | addType type extension =>
      obtain ⟨m, -, rfl⟩ := Option.map_eq_some_iff.mp h
      exact hrules
  | addAlias type fakename realname =>
      simp only [Tables.apply] at h
      split_ifs at h
      obtain rfl := Option.some.inj h
      exact hrules
  | addAccess type pattern =>
      simp only [Tables.apply, hoff] at h
      obtain rfl := Option.some.inj h
      exact hrules
  | fatal => cases h
  | _ =>
      obtain rfl := Option.some.inj h
      exact hrules

lemma noRules_foldlM {c : Configuration} {t t' : Tables}
    (h : c.foldlM (Tables.apply site) t = some t') (ht : NoRules site t) : NoRules site t' := by
  induction c generalizing t with
  | nil => exact Option.some.inj h ▸ ht
  | cons d c ih =>
      rw [List.foldlM_cons] at h
      obtain ⟨u, hd, hc⟩ := Option.bind_eq_some_iff.mp h
      exact ih hc (noRules_apply hd ht)

lemma accessInit_of_noRules {t : Tables} (h : NoRules site t) (ha : t.aliases = fun _ => [])
    (hm : t.mimeTypes = fun _ => []) : accessInit site t = {} := by
  unfold accessInit
  obtain ⟨aliases, mimeTypes, accessNodes⟩ := t
  obtain rfl : aliases = _ := ha
  obtain rfl : mimeTypes = _ := hm
  cases hac : site.accessControl with
  | true => rfl
  | false =>
      obtain rfl : accessNodes = [] := h hac
      rfl

/-- **A start** fills empty tables, and the environment holds the variables of the server
only. -/
lemma startServer_eq_some {c : Configuration} {f : ServerState}
    (h : startServer site c = some f) :
    fixSettings site (settingsOf c site.init) = some f.settings ∧
      c.foldlM (Tables.apply site) {} = some f.tables ∧
      f.commonCgiEnv = ownVariables site f.settings := by
  obtain ⟨s, hs, rfl⟩ := Option.map_eq_some_iff.mp h
  obtain ⟨hfix, htab, -⟩ := readConfigFiles_eq_some hs
  rw [accessInit_of_noRules (fun _ => rfl) rfl rfl] at htab
  exact ⟨hfix, htab, rfl⟩

/-- **A reload** fills empty tables, too, but it adds to the environment. -/
lemma sighupRun_eq_some {c : Configuration} {s s' : ServerState} (hs : NoRules site s.tables)
    (h : sighupRun site s c = some s') :
    fixSettings site (settingsOf c s.settings) = some s'.settings ∧
      c.foldlM (Tables.apply site) {} = some s'.tables ∧
      s'.commonCgiEnv = s.commonCgiEnv ++ entriesOf c := by
  have hempty : accessInit site
      { s.tables with aliases := fun _ => [], mimeTypes := fun _ => [] } = {} :=
    accessInit_of_noRules (fun hoff => hs hoff) rfl rfl
  obtain ⟨hfix, htab, henv⟩ := readConfigFiles_eq_some h
  exact ⟨hfix, hempty ▸ htab, henv⟩

lemma roots_of_fixSettings {v w : Settings} (h : fixSettings site v = some w) :
    w.roots = v.roots := by
  obtain ⟨name, -, -, -, -, rfl⟩ := fixSettings_eq_some_iff.mp h
  rfl

lemma compatible_of_fixSettings {v w : Settings} (h : fixSettings site v = some w) :
    Compatible w := by
  have hroots := roots_of_fixSettings h
  obtain ⟨name, -, -, hcompat, -, -⟩ := fixSettings_eq_some_iff.mp h
  exact (compatible_congr hroots).mpr hcompat

/-- **A run of reloads**: the tables are those of the last configuration, the environment has
grown by all entries, and the variables have piled up. -/
lemma foldlM_sighupRun_eq_some {c : Configuration} {cs : List Configuration}
    {s s' : ServerState} (hs : c.foldlM (Tables.apply site) {} = some s.tables)
    (h : cs.foldlM (sighupRun site) s = some s') :
    (lastOf c cs).foldlM (Tables.apply site) {} = some s'.tables ∧
      s'.commonCgiEnv = s.commonCgiEnv ++ cs.flatMap entriesOf ∧
      s'.settings.roots = (settingsOf cs.flatten s.settings).roots ∧
      (Compatible s.settings → Compatible s'.settings) := by
  induction cs generalizing c s with
  | nil =>
      obtain rfl := Option.some.inj h
      exact ⟨hs, (List.append_nil _).symm, rfl, id⟩
  | cons d cs ih =>
      rw [List.foldlM_cons] at h
      obtain ⟨t, ht, hcs⟩ := Option.bind_eq_some_iff.mp h
      have hrules : NoRules site s.tables := noRules_foldlM hs fun _ => rfl
      obtain ⟨hfix, htab, henv⟩ := sighupRun_eq_some hrules ht
      obtain ⟨htab', henv', hroots, hcompat⟩ := ih htab hcs
      refine ⟨?_, ?_, ?_, fun _ => hcompat (compatible_of_fixSettings hfix)⟩
      · rwa [lastOf, List.getLastD_cons]
      · rw [henv', henv, List.append_assoc]
        rfl
      · rw [hroots, roots_settingsOf_congr (roots_of_fixSettings hfix), List.flatten_cons,
          settingsOf, settingsOf, settingsOf, List.foldl_append]

/-- A configuration that the server starts with, it reloads as well, as long as `VHostRoot`
and the like do not meet, and the environment has room. -/
lemma sighupRun_isSome {c : Configuration} {s : ServerState} {v : Settings}
    (hc : (startServer site c).isSome) (hv : fixSettings site v = some s.settings)
    (henv : s.commonCgiEnv.length + (entriesOf c).length ≤ cgiEnvMax)
    (hcompat : Compatible (settingsOf c s.settings)) : (sighupRun site s c).isSome := by
  obtain ⟨name, hname, hlimit, -, htype, hset⟩ := fixSettings_eq_some_iff.mp hv
  obtain ⟨f, hf⟩ := Option.isSome_iff_exists.mp hc
  obtain ⟨-, -, hlimit', -, -, -⟩ := fixSettings_eq_some_iff.mp (startServer_eq_some hf).1
  have hnamed : s.settings.string .serverName ≠ none := by
    rw [hset]
    simp [Settings.named]
  have htyped : s.settings.string .defaultType ≠ none := by
    rw [hset]
    simpa [Settings.named] using htype
  obtain ⟨name', hname'⟩ := Option.ne_none_iff_exists'.mp (string_settingsOf_ne_none hnamed c)
  refine readConfigFiles_isSome (t := { settings := site.init }) ?_ henv
    (Option.isSome_iff_exists.mpr ⟨_, fixSettings_eq_some_iff.mpr
      ⟨name', ?_, ?_, hcompat, string_settingsOf_ne_none htyped c, rfl⟩⟩)
  · rwa [startServer, Option.isSome_map] at hc
  · rw [hname']
    rfl
  · rcases limit_settingsOf s.settings site.init c with h | h
    · rwa [h]
    · rw [h, hset]
      exact hlimit

lemma foldlM_sighupRun_isSome {cs : List Configuration} {s : ServerState} {v : Settings}
    (hcs : ∀ d ∈ cs, (startServer site d).isSome ∧ entriesOf d = [])
    (hs : NoRules site s.tables) (hv : fixSettings site v = some s.settings)
    (henv : s.commonCgiEnv.length ≤ cgiEnvMax)
    (hcompat : Compatible (settingsOf cs.flatten s.settings)) :
    ∃ s', cs.foldlM (sighupRun site) s = some s' := by
  induction cs generalizing s v with
  | nil => exact ⟨s, rfl⟩
  | cons d cs ih =>
      obtain ⟨hd, hentries⟩ := hcs d List.mem_cons_self
      have hflat : settingsOf (d :: cs).flatten s.settings
          = settingsOf cs.flatten (settingsOf d s.settings) := by
        rw [List.flatten_cons, settingsOf, List.foldl_append]
        rfl
      rw [hflat] at hcompat
      obtain ⟨t, ht⟩ := Option.isSome_iff_exists.mp (sighupRun_isSome hd hv
        (by rw [hentries]; exact henv) (compatible_of_settingsOf _ hcompat))
      obtain ⟨hfix, htab, htenv⟩ := sighupRun_eq_some hs ht
      rw [hentries, List.append_nil] at htenv
      have hroots := roots_settingsOf_congr (roots_of_fixSettings hfix) cs.flatten
      obtain ⟨s', hs'⟩ := ih (fun e he => hcs e (List.mem_cons_of_mem d he))
        (noRules_foldlM htab fun _ => rfl) hfix (by rw [htenv]; exact henv)
        ((compatible_congr hroots).mpr hcompat)
      refine ⟨s', ?_⟩
      rw [List.foldlM_cons, ht]
      exact hs'

lemma lastOf_mem (c : Configuration) (cs : List Configuration) : lastOf c cs ∈ c :: cs := by
  induction cs generalizing c with
  | nil => exact List.mem_singleton_self c
  | cons d cs ih =>
      rw [lastOf, List.getLastD_cons]
      exact List.mem_cons_of_mem c (ih d)

/-- **Reloading against starting afresh.** For configurations that the server starts with, a
start and reloads leave what a fresh start with the last one leaves, with an entry for each of
its `CGIEnv` directives, if and only if there are no such directives in what is reloaded or
last, the first and the last configuration agree on the variables of the server, and no
`VHostRoot` meets a `VirtualHost` or `DocumentRoot`. -/
theorem reload_fresh_iff (site : Site) (c : Configuration) (cs : List Configuration)
    (hstart : ∀ d ∈ c :: cs, (startServer site d).isSome) :
    ReloadsAsFresh site c cs ↔ ReloadsCleanly site c cs := by
  obtain ⟨s₁, hs₁⟩ := Option.isSome_iff_exists.mp (hstart c List.mem_cons_self)
  obtain ⟨f, hf⟩ := Option.isSome_iff_exists.mp (hstart _ (lastOf_mem c cs))
  obtain ⟨hfix, htab, henv⟩ := startServer_eq_some hs₁
  obtain ⟨hfixf, htabf, henvf⟩ := startServer_eq_some hf
  obtain ⟨name, hname, -, -, -, hset⟩ := fixSettings_eq_some_iff.mp hfix
  obtain ⟨name', hname', -, -, -, hsetf⟩ := fixSettings_eq_some_iff.mp hfixf
  have hsame := ownVariables_named_eq_iff hname hname'
  rw [← hset, ← hsetf] at hsame
  have hflat : settingsOf (c :: cs).flatten site.init
      = settingsOf cs.flatten (settingsOf c site.init) := by
    rw [List.flatten_cons, settingsOf, List.foldl_append]
    rfl
  have hroots₁ := roots_settingsOf_congr (roots_of_fixSettings hfix) cs.flatten
  rw [← hflat] at hroots₁
  constructor
  · rintro ⟨s, f', hs, hf', -, -, -, hsf, -, hperm⟩
    obtain rfl := Option.some.inj (hf.symm.trans hf')
    rw [reloaded, hs₁] at hs
    obtain ⟨-, henvs, hroots, hcompat⟩ := foldlM_sighupRun_eq_some htab hs
    rw [henvs, henv, henvf] at hsf
    rw [henvf] at hperm
    have hlast : entriesOf (lastOf c cs) = [] := by
      have hlen := hperm.length_eq
      rw [List.length_append] at hlen
      exact List.eq_nil_of_length_eq_zero (by omega)
    have hlen := congrArg List.length hsf
    rw [List.length_append, length_ownVariables, length_ownVariables] at hlen
    have hnone : cs.flatMap entriesOf = [] := List.eq_nil_of_length_eq_zero (by omega)
    rw [hnone, List.append_nil] at hsf
    refine ⟨List.forall_mem_cons.mpr ⟨hlast, List.flatMap_eq_nil_iff.mp hnone⟩,
      hsame.mp hsf, (compatible_congr (hroots.trans hroots₁)).mp ?_⟩
    exact hcompat (compatible_of_fixSettings hfix)
  · rintro ⟨hentries, hvars, hcompat⟩
    obtain ⟨hlast, hnone⟩ := List.forall_mem_cons.mp hentries
    have hfull : s₁.commonCgiEnv.length ≤ cgiEnvMax := by
      rw [henv, length_ownVariables]
      split_ifs <;> decide
    obtain ⟨s, hs⟩ := foldlM_sighupRun_isSome
      (fun d hd => ⟨hstart d (List.mem_cons_of_mem c hd), hnone d hd⟩)
      (noRules_foldlM htab fun _ => rfl) hfix hfull ((compatible_congr hroots₁).mpr hcompat)
    obtain ⟨htabs, henvs, -, -⟩ := foldlM_sighupRun_eq_some htab hs
    have htables : s.tables = f.tables := Option.some.inj (htabs.symm.trans htabf)
    have hsf : s.commonCgiEnv = f.commonCgiEnv := by
      rw [henvs, List.flatMap_eq_nil_iff.mpr hnone, List.append_nil, henv, henvf]
      exact hsame.mpr hvars
    refine ⟨s, f, ?_, hf, by rw [htables], by rw [htables], by rw [htables], hsf, ?_, ?_⟩
    · rw [reloaded, hs₁]
      exact hs
    · rw [hlast, List.append_nil, hsf, henvf]
    · rw [hlast, List.append_nil, henvf]

/-- A server named `a`. -/
def plainConfiguration : Configuration :=
  [.setString .serverName (str "a"), .setString .defaultType (str "t")]

/-- A server that is started and reloaded with the same configuration. -/
theorem reload_fresh_plain :
    (∀ d ∈ [plainConfiguration, plainConfiguration], (startServer {} d).isSome) ∧
      ReloadsAsFresh {} plainConfiguration [plainConfiguration] := by
  have hstart : ∀ d ∈ [plainConfiguration, plainConfiguration], (startServer {} d).isSome := by
    decide
  refine ⟨hstart, (reload_fresh_iff {} plainConfiguration [plainConfiguration] hstart).mpr
    ⟨by decide, ⟨rfl, rfl, rfl, rfl, nofun, rfl⟩, nofun⟩⟩

/-- A server named `a` with the directive `CGIEnv A B`. -/
def cgiEnvConfiguration : Configuration :=
  plainConfiguration ++ [.cgiEnv (str "A") (some (str "B"))]

/-- The directive is lost when the server starts, so that a reload, which finds it, leaves
something else. -/
theorem cgiEnv_lost_at_start :
    (startServer {} cgiEnvConfiguration).isSome ∧
      ¬ReloadsAsFresh {} cgiEnvConfiguration [] ∧
      ¬ReloadsAsFresh {} cgiEnvConfiguration [cgiEnvConfiguration] := by
  have hlost : ∀ cs, lastOf cgiEnvConfiguration cs = cgiEnvConfiguration →
      ¬ReloadsAsFresh {} cgiEnvConfiguration cs := by
    rintro cs hlast ⟨s, f, -, hf, -, -, -, -, -, hperm⟩
    have hlen := hperm.length_eq
    rw [hlast, (startServer_eq_some hf).2.2, List.length_append] at hlen
    have hone : (entriesOf cgiEnvConfiguration).length = 1 := by decide
    omega
  exact ⟨by decide, hlost [] rfl, hlost _ rfl⟩

end Yabwf
