import Yabwf.Alias
import Yabwf.Lib.Buckets
import Yabwf.Lib.Run
import Yabwf.Reload

/-!
`hash.c`: the tables of the MIME types and of the home directories.

* `fnv1aHash`, `hashInsert`, `hashFind`, `hashClear`: a hash table whose buckets are chains.
* `HashTables`: the two tables, with `add_mime_type`, `get_mime_type` and `get_home_dir`.
* `hashInsert_table`, `hashFind_eq`: insertion and search in the terms of `Buckets`.
* `StandsFor`: a table stands for the list of what has been inserted since it was cleared.
* `hashTables_firstWins`: after any calls the tables are maps in which the first insertion wins.
-/

namespace Yabwf

/-! ### Hash values -/

/-- `PASSWD_HASHTABLE_SIZE`. -/
def passwdHashtableSize : ℕ := 47

/-- `MAX_HASH_LENGTH`. -/
def maxHashLength : ℕ := 4

/-- The loop of `fnv1a_hash`, whose `char`s are signed: it goes on while there are characters and
`count` has not run out. -/
def fnv1aLoop : ℕ → ℕ → Bytes → ℕ
  | _, hash, [] => hash
  | 0, hash, c :: _ => ((hash ^^^ charToUnsigned c) * 16777619) % 2 ^ 32
  | count + 1, hash, c :: s =>
      fnv1aLoop count (((hash ^^^ charToUnsigned c) * 16777619) % 2 ^ 32) s

/-- `fnv1a_hash`. -/
def fnv1aHash (s : Bytes) : ℕ := fnv1aLoop maxHashLength 2166136261 s

/-- `boa_hash`. -/
def boaHash (s : Bytes) : ℕ := if s = [] then 0 else fnv1aHash s

/-- `get_mime_hash_value`. -/
def getMimeHashValue (extension : Bytes) : ℕ := boaHash extension % mimeHashtableSize

/-- `get_homedir_hash_value`. -/
def getHomedirHashValue (name : Bytes) : ℕ := boaHash name % passwdHashtableSize

/-! ### Tables -/

/-- `hash_struct`. -/
structure HashStruct where
  key : Bytes
  value : Bytes
  deriving DecidableEq, Repr

/-- A table: the chain of each bucket. -/
abbrev HashTable := ℕ → List HashStruct

/-- The loop of `hash_insert` at an entry, with the entries behind it: the entry with the key, or
none where the chain ends. -/
def hashInsertLoop (key : Bytes) : HashStruct → List HashStruct → Option HashStruct
  | current, [] => if current.key == key then some current else none
  | current, next :: rest =>
      if current.key == key then some current else hashInsertLoop key next rest

/-- `hash_insert`: what it returns, and the table. `alloc` says whether there is memory. -/
def hashInsert (alloc : Bool) (t : HashTable) (hash : ℕ) (key value : Bytes) :
    Option HashStruct × HashTable :=
  let trailer : HashStruct := ⟨key, value⟩
  let link : Option HashStruct × HashTable :=
    if alloc then (some trailer, fun h => if h = hash then t hash ++ [trailer] else t h)
    else (none, t)
  if key = [] ∨ value = [] then (none, t)
  else
    match t hash with
    | [] => link
    | current :: rest =>
        match hashInsertLoop key current rest with
        | some old => (some old, t)
        | none => link

/-- `hash_find`. -/
def hashFind (t : HashTable) (key : Bytes) (hash : ℕ) : Option HashStruct :=
  if key = [] then none else (t hash).find? fun current => current.key == key

/-- `hash_clear`. -/
def hashClear (t : HashTable) (size : ℕ) : HashTable := fun i => if i < size then [] else t i

/-- `mime_hashtable` and `passwd_hashtable`. -/
structure HashTables where
  mime : HashTable := fun _ => []
  passwd : HashTable := fun _ => []

namespace HashTables

/-- `add_mime_type`; `none` is the end of the server. -/
def addMimeType (alloc : Bool) (s : HashTables) (extension type : Bytes) : Option HashTables :=
  match hashInsert alloc s.mime (getMimeHashValue extension) extension type with
  | (none, _) => none
  | (some _, t) => some { s with mime := t }

/-- `get_mime_type`. -/
def getMimeType (defaultType : Bytes) (s : HashTables) (filename : Bytes) : Bytes :=
  match extension filename with
  | none => defaultType
  | some ext =>
      if ext = [] then defaultType
      else
        match hashFind s.mime ext (getMimeHashValue ext) with
        | some current => current.value
        | none => defaultType

/-- `get_home_dir`, with what `getpwnam` says of the user. -/
def getHomeDir (alloc : Bool) (s : HashTables) (name : Bytes) (pwDir : Option Bytes) :
    Option Bytes × HashTables :=
  let hash := getHomedirHashValue name
  match hashFind s.passwd name hash with
  | some current => (some current.value, s)
  | none =>
      match pwDir with
      | none => (none, s)
      | some dir =>
          let res := hashInsert alloc s.passwd hash name dir
          (res.1.map HashStruct.value, { s with passwd := res.2 })

/-- `dump_mime`. -/
def dumpMime (s : HashTables) : HashTables := { s with mime := hashClear s.mime mimeHashtableSize }

/-- `dump_passwd`. -/
def dumpPasswd (s : HashTables) : HashTables :=
  { s with passwd := hashClear s.passwd passwdHashtableSize }

end HashTables

/-- A call that may change the tables. -/
inductive HashCall
  | addMimeType (extension type : Bytes)
  | getHomeDir (name : Bytes) (pwDir : Option Bytes)
  | dumpMime
  | dumpPasswd

/-- Neither the key nor the value is empty. -/
def HashCall.Filled : HashCall → Prop
  | .addMimeType extension type => extension ≠ [] ∧ type ≠ []
  | .getHomeDir name pwDir => name ≠ [] ∧ pwDir ≠ some []
  | _ => True

instance : DecidablePred HashCall.Filled
  | .addMimeType extension type => inferInstanceAs (Decidable (extension ≠ [] ∧ type ≠ []))
  | .getHomeDir name pwDir => inferInstanceAs (Decidable (name ≠ [] ∧ pwDir ≠ some []))
  | .dumpMime => isTrue trivial
  | .dumpPasswd => isTrue trivial

/-- The tables after a call, when there is memory. -/
def HashTables.call (s : HashTables) : HashCall → HashTables
  | .addMimeType extension type => (s.addMimeType true extension type).getD s
  | .getHomeDir name pwDir => (s.getHomeDir true name pwDir).2
  | .dumpMime => s.dumpMime
  | .dumpPasswd => s.dumpPasswd

/-! ### What the tables are for -/

/-- The types that have been added since `mime_hashtable` was cleared. -/
def mimeAdded (calls : List HashCall) : List HashStruct :=
  calls.foldl (fun added call =>
    match call with
    | .addMimeType extension type => added ++ [⟨extension, type⟩]
    | .dumpMime => []
    | _ => added) []

/-- The directories that have been asked for since `passwd_hashtable` was cleared. -/
def passwdAdded (calls : List HashCall) : List HashStruct :=
  calls.foldl (fun added call =>
    match call with
    | .getHomeDir name (some dir) => added ++ [⟨name, dir⟩]
    | .dumpPasswd => []
    | _ => added) []

/-- The value of the first entry with a key. -/
def firstValue (added : List HashStruct) (key : Bytes) : Option Bytes :=
  (added.find? fun e => e.key == key).map HashStruct.value

/-- No key is in the table twice. -/
def UniqueKeys (t : HashTable) : Prop :=
  ∀ (h h' i j : ℕ) (a b : HashStruct), (t h)[i]? = some a → (t h')[j]? = some b → a.key = b.key →
    h = h' ∧ i = j

/-- A table of the given size stands for what has been added to it: it holds the first entry of
each key, and nothing else. -/
structure StandsFor (hash : Bytes → ℕ) (size : ℕ) (t : HashTable) (added : List HashStruct) :
    Prop where
  distinct : Buckets.Distinct HashStruct.key hash t
  firstWins : Buckets.FirstWins HashStruct.key hash t added
  filled : ∀ e ∈ added, e.key ≠ []
  outside : ∀ h, size ≤ h → t h = []

lemma getMimeHashValue_lt (extension : Bytes) :
    getMimeHashValue extension < mimeHashtableSize := Nat.mod_lt _ (by decide)

lemma getHomedirHashValue_lt (name : Bytes) :
    getHomedirHashValue name < passwdHashtableSize := Nat.mod_lt _ (by decide)

/-! ### Insertion and search -/

lemma hashInsertLoop_eq (key : Bytes) (current : HashStruct) (rest : List HashStruct) :
    hashInsertLoop key current rest = (current :: rest).find? fun e => e.key == key := by
  induction rest generalizing current with
  | nil =>
      rw [hashInsertLoop]
      cases hkey : current.key == key <;> simp [hkey]
  | cons next rest ih =>
      rw [hashInsertLoop, ih]
      cases hkey : current.key == key <;> simp [hkey]

/-- Where there is memory, `hash_insert` finds the entry with the key or appends one. -/
lemma hashInsert_eq (t : HashTable) (hash : ℕ) {key value : Bytes} (hkey : key ≠ [])
    (hvalue : value ≠ []) :
    hashInsert true t hash key value =
      match (t hash).find? fun e => e.key == key with
      | some old => (some old, t)
      | none => (some ⟨key, value⟩,
          fun h => if h = hash then t h ++ [⟨key, value⟩] else t h) := by
  have hlink : (fun h => if h = hash then t hash ++ [⟨key, value⟩] else t h)
      = fun h => if h = hash then t h ++ [(⟨key, value⟩ : HashStruct)] else t h :=
    funext fun h => if_ctx_congr Iff.rfl (fun hh => by rw [hh]) fun _ => rfl
  rw [hashInsert, if_neg (not_or.mpr ⟨hkey, hvalue⟩), if_pos rfl, hlink]
  cases t hash with
  | nil => rfl
  | cons current rest =>
      dsimp only
      rw [hashInsertLoop_eq]

section

variable {hash : Bytes → ℕ} {size : ℕ} {t : HashTable} {added : List HashStruct}

/-- The table is the one of `Buckets`. -/
lemma hashInsert_table (t : HashTable) {key value : Bytes} (hkey : key ≠ []) (hvalue : value ≠ []) :
    (hashInsert true t (hash key) key value).2
      = Buckets.insertNew HashStruct.key hash t ⟨key, value⟩ := by
  rw [hashInsert_eq t (hash key) hkey hvalue, Buckets.insertNew]
  cases hfind : (t (hash key)).find? fun e => e.key == key with
  | some old =>
      refine (if_pos (List.any_eq_true.mpr ⟨old, List.mem_of_find?_eq_some hfind, ?_⟩)).symm
      exact List.find?_some (p := fun e : HashStruct => e.key == key) hfind
  | none =>
      refine (if_neg fun hany => ?_).symm
      obtain ⟨old, hmem, heq⟩ := List.any_eq_true.mp hany
      exact List.find?_eq_none.mp hfind old hmem heq

namespace StandsFor

lemma uniqueKeys (h : StandsFor hash size t added) : UniqueKeys t :=
  fun _ _ _ _ _ _ ha hb hkey => h.distinct.place ha hb hkey

lemma empty (hash : Bytes → ℕ) (size : ℕ) : StandsFor hash size (fun _ => []) [] :=
  ⟨Buckets.distinct_empty _ _, Buckets.firstWins_empty _ _, nofun, fun _ _ => rfl⟩

/-- **Search**: the entry that is found is the first one. -/
lemma hashFind_eq (h : StandsFor hash size t added) (key : Bytes) :
    hashFind t key (hash key) = added.find? fun e => e.key == key := by
  rw [hashFind]
  by_cases hkey : key = []
  · rw [if_pos hkey]
    refine (List.find?_eq_none.mpr fun e he heq => h.filled e he ?_).symm
    rw [eq_of_beq heq, hkey]
  · rw [if_neg hkey]
    exact h.firstWins.find? key

lemma find_value (h : StandsFor hash size t added) (key : Bytes) :
    (hashFind t key (hash key)).map HashStruct.value = firstValue added key := by
  rw [h.hashFind_eq key, firstValue]

/-- **Insertion.** -/
lemma insert (h : StandsFor hash size t added) {key value : Bytes} (hlt : hash key < size)
    (hkey : key ≠ []) (hvalue : value ≠ []) :
    StandsFor hash size (hashInsert true t (hash key) key value).2 (added ++ [⟨key, value⟩]) := by
  rw [hashInsert_table t hkey hvalue]
  refine ⟨h.distinct.insertNew _, h.firstWins.insertNew _, ?_, fun i hi => ?_⟩
  · exact List.forall_mem_append.mpr ⟨h.filled, List.forall_mem_singleton.mpr hkey⟩
  · rw [Buckets.insertNew]
    split_ifs
    · exact h.outside i hi
    · dsimp only
      rw [if_neg (show i ≠ hash key by omega)]
      exact h.outside i hi

/-- An entry whose key is there already changes nothing. -/
lemma known (h : StandsFor hash size t added) {key : Bytes} (value : Bytes) (hkey : key ≠ [])
    (hfound : hashFind t key (hash key) ≠ none) :
    StandsFor hash size t (added ++ [⟨key, value⟩]) := by
  have hsame : Buckets.insertNew HashStruct.key hash t ⟨key, value⟩ = t := by
    refine if_pos ?_
    obtain ⟨old, hold⟩ := Option.ne_none_iff_exists'.mp hfound
    rw [hashFind, if_neg hkey] at hold
    exact List.any_eq_true.mpr ⟨old, List.mem_of_find?_eq_some hold,
      List.find?_some (p := fun e : HashStruct => e.key == key) hold⟩
  have hnew := h.firstWins.insertNew ⟨key, value⟩
  rw [hsame] at hnew
  exact ⟨h.distinct, hnew,
    List.forall_mem_append.mpr ⟨h.filled, List.forall_mem_singleton.mpr hkey⟩, h.outside⟩

/-- **Clearing**: nothing is left in the table. -/
lemma clear (h : StandsFor hash size t added) : StandsFor hash size (hashClear t size) [] := by
  have hnil : hashClear t size = fun _ => [] := by
    funext i
    rw [hashClear]
    split_ifs with hi
    · rfl
    · exact h.outside i (not_lt.mp hi)
  rw [hnil]
  exact empty hash size

end StandsFor

end

/-! ### Runs -/

/-- Both tables stand for what has been added to them. -/
structure HashTables.StandFor (s : HashTables) (calls : List HashCall) : Prop where
  mime : StandsFor getMimeHashValue mimeHashtableSize s.mime (mimeAdded calls)
  passwd : StandsFor getHomedirHashValue passwdHashtableSize s.passwd (passwdAdded calls)

lemma mimeAdded_concat (calls : List HashCall) (call : HashCall) :
    mimeAdded (calls ++ [call]) =
      match call with
      | .addMimeType extension type => mimeAdded calls ++ [⟨extension, type⟩]
      | .dumpMime => []
      | _ => mimeAdded calls := by
  rw [mimeAdded, List.foldl_append]
  rfl

lemma passwdAdded_concat (calls : List HashCall) (call : HashCall) :
    passwdAdded (calls ++ [call]) =
      match call with
      | .getHomeDir name (some dir) => passwdAdded calls ++ [⟨name, dir⟩]
      | .dumpPasswd => []
      | _ => passwdAdded calls := by
  rw [passwdAdded, List.foldl_append]
  rfl

/-- `add_mime_type` returns. -/
lemma addMimeType_eq (s : HashTables) {extension type : Bytes} (hext : extension ≠ [])
    (htype : type ≠ []) :
    s.addMimeType true extension type
      = some { s with
          mime := (hashInsert true s.mime (getMimeHashValue extension) extension type).2 } := by
  rw [HashTables.addMimeType, hashInsert_eq s.mime _ hext htype]
  cases (s.mime (getMimeHashValue extension)).find? fun e => e.key == extension <;> rfl

/-- `get_home_dir` and its table. -/
lemma StandsFor.getHomeDir {s : HashTables} {added : List HashStruct}
    (h : StandsFor getHomedirHashValue passwdHashtableSize s.passwd added) {name dir : Bytes}
    (hname : name ≠ []) (hdir : dir ≠ []) :
    StandsFor getHomedirHashValue passwdHashtableSize (s.getHomeDir true name (some dir)).2.passwd
      (added ++ [⟨name, dir⟩]) := by
  unfold HashTables.getHomeDir
  dsimp only
  cases hfound : hashFind s.passwd name (getHomedirHashValue name) with
  | some current =>
      refine h.known dir hname ?_
      rw [hfound]
      exact Option.some_ne_none current
  | none => exact h.insert (getHomedirHashValue_lt name) hname hdir

/-- A user without an entry, whom the system does not know. -/
lemma getHomeDir_none (s : HashTables) (name : Bytes) : (s.getHomeDir true name none).2 = s := by
  rw [HashTables.getHomeDir]
  cases hashFind s.passwd name (getHomedirHashValue name) <;> rfl

lemma getHomeDir_mime (s : HashTables) (name : Bytes) (pwDir : Option Bytes) :
    (s.getHomeDir true name pwDir).2.mime = s.mime := by
  unfold HashTables.getHomeDir
  dsimp only
  cases hashFind s.passwd name (getHomedirHashValue name) <;> cases pwDir <;> rfl

/-- **A call.** -/
lemma HashTables.StandFor.call {s : HashTables} {calls : List HashCall} (h : s.StandFor calls)
    {call : HashCall} (hfilled : call.Filled) : (s.call call).StandFor (calls ++ [call]) := by
  refine ⟨?_, ?_⟩
  · rw [mimeAdded_concat]
    cases call with
    | addMimeType extension type =>
        rw [HashTables.call, addMimeType_eq s hfilled.1 hfilled.2]
        exact h.mime.insert (getMimeHashValue_lt extension) hfilled.1 hfilled.2
    | getHomeDir name pwDir =>
        rw [HashTables.call, getHomeDir_mime]
        exact h.mime
    | dumpMime => exact h.mime.clear
    | dumpPasswd => exact h.mime
  · rw [passwdAdded_concat]
    cases call with
    | addMimeType extension type =>
        rw [HashTables.call, addMimeType_eq s hfilled.1 hfilled.2]
        exact h.passwd
    | getHomeDir name pwDir =>
        rw [HashTables.call]
        cases pwDir with
        | none =>
            rw [getHomeDir_none]
            exact h.passwd
        | some dir => exact h.passwd.getHomeDir hfilled.1 fun hdir => hfilled.2 (by rw [hdir])
    | dumpMime => exact h.passwd
    | dumpPasswd => exact h.passwd.clear

/-- **The tables** after any calls. -/
lemma runs_standFor (calls : List HashCall) (hfilled : ∀ call ∈ calls, call.Filled) :
    (Run.runs HashTables.call {} calls).StandFor calls := by
  induction calls using List.reverseRecOn with
  | nil => exact ⟨StandsFor.empty _ _, StandsFor.empty _ _⟩
  | append_singleton calls call ih =>
      rw [Run.runs_append]
      have hprev := ih fun c hc => hfilled c (List.mem_append_left _ hc)
      exact hprev.call (hfilled call (List.mem_append_right _ (List.mem_singleton_self call)))

/-- The extension is looked up, and an empty one is in no table. -/
lemma StandsFor.getMimeType_eq {s : HashTables} {added : List HashStruct}
    (h : StandsFor getMimeHashValue mimeHashtableSize s.mime added)
    (defaultType filename : Bytes) :
    s.getMimeType defaultType filename
      = ((extension filename).bind (firstValue added)).getD defaultType := by
  rw [HashTables.getMimeType]
  cases extension filename with
  | none => rfl
  | some ext =>
      rw [Option.bind_some, ← h.find_value ext]
      dsimp only
      by_cases hext : ext = []
      · rw [if_pos hext, hashFind, if_pos hext]
        rfl
      · rw [if_neg hext]
        cases hashFind s.mime ext (getMimeHashValue ext) <;> rfl

/-- The configuration's `getMimeType` is the one of the table that has been filled with its
types. -/
lemma getMimeType_config {s : HashTables} {added : List HashStruct}
    (h : StandsFor getMimeHashValue mimeHashtableSize s.mime added) {cfg : Config}
    (hcfg : cfg.mimeTypes = added.map fun e => (e.key, e.value)) (filename : Bytes) :
    s.getMimeType cfg.defaultType filename = getMimeType cfg filename := by
  rw [h.getMimeType_eq, getMimeType]
  cases extension filename with
  | none => rfl
  | some ext =>
      dsimp only
      rw [Option.bind_some, hcfg, List.find?_map, Option.map_map]
      by_cases hext : ext = []
      · rw [if_pos hext, ← h.find_value, hashFind, if_pos hext]
        rfl
      · rw [if_neg hext]
        rfl

/-- **The hash tables** after any calls of `add_mime_type`, `get_home_dir`, `dump_mime` and
`dump_passwd`: `hash_find` returns the value that was added first since the table was cleared, no
key is in a table twice, all buckets are those of the arrays, and `get_mime_type` returns the value
for the extension or the default. -/
theorem hashTables_firstWins (calls : List HashCall) (hfilled : ∀ call ∈ calls, call.Filled) :
    let s := Run.runs HashTables.call {} calls
    (∀ key, (hashFind s.mime key (getMimeHashValue key)).map HashStruct.value
        = firstValue (mimeAdded calls) key) ∧
    (∀ key, (hashFind s.passwd key (getHomedirHashValue key)).map HashStruct.value
        = firstValue (passwdAdded calls) key) ∧
    UniqueKeys s.mime ∧ UniqueKeys s.passwd ∧
    (∀ key, getMimeHashValue key < mimeHashtableSize ∧
      getHomedirHashValue key < passwdHashtableSize) ∧
    (∀ h, (mimeHashtableSize ≤ h → s.mime h = []) ∧ (passwdHashtableSize ≤ h → s.passwd h = [])) ∧
    ∀ defaultType filename, s.getMimeType defaultType filename
      = ((extension filename).bind (firstValue (mimeAdded calls))).getD defaultType := by
  obtain ⟨hmime, hpasswd⟩ := runs_standFor calls hfilled
  exact ⟨hmime.find_value, hpasswd.find_value, hmime.uniqueKeys, hpasswd.uniqueKeys,
    fun key => ⟨getMimeHashValue_lt key, getHomedirHashValue_lt key⟩,
    fun h => ⟨hmime.outside h, hpasswd.outside h⟩, hmime.getMimeType_eq⟩

/-- The first type of an extension that is added twice. -/
theorem hashTables_firstWins_html :
    (Run.runs HashTables.call {} [.addMimeType (str "html") (str "text/html"),
      .addMimeType (str "html") (str "text/plain")]).getMimeType (str "text/x") (str "/a.html")
        = str "text/html" := by
  have hfilled : ∀ call ∈ [HashCall.addMimeType (str "html") (str "text/html"),
      .addMimeType (str "html") (str "text/plain")], call.Filled := by decide
  have hmime := (hashTables_firstWins _ hfilled).2.2.2.2.2.2 (str "text/x") (str "/a.html")
  rw [hmime]
  decide

end Yabwf
