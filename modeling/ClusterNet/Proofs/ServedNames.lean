import ClusterNet.Proofs.Transfers

/-!
# Served names stay inside the directory

A path is read part by part, and only some parts of it count. A name is served if all that counts
of it are ordinary names. What such a name denotes is then the place of the directory and these
names behind it, however the slashes and points are strewn, and this is the only thing that is ever
opened for it. For any other name nothing is opened at all.
-/

namespace ClusterNet.Consensus

/-! ## Paths -/

/-- What counts of a path. -/
inductive Component where
  | root
  /-- The directory that one is in, where a path begins with it. -/
  | here
  | up
  | name (letters : List Char)
  deriving DecidableEq, Repr

/-- A part between slashes. Nothing and a single point do not count. -/
def inner? (part : List Char) : Option Component :=
  if part = [] ∨ part = ['.'] then none
  else if part = ['.', '.'] then some .up
  else some (.name part)

def inners (letters : List Char) : List Component := (letters.splitOn '/').filterMap inner?

/-- The front of a path. A slash is the root there, and a single point counts. -/
def front (letters : List Char) : List Component :=
  if letters.head? = some '/' then [.root]
  else if (letters.splitOn '/').head? = some ['.'] then [.here]
  else []

def components (path : String) : List Component := front path.toList ++ inners path.toList

/-- A path that is followed from a directory. An absolute one leads where it says. -/
def join (dir path : String) : String :=
  if path.toList.head? = some '/' then path
  else if dir = "" ∨ dir.toList.getLast? = some '/' then dir ++ path
  else dir ++ "/" ++ path

/-- A name that an entry of a directory can have. -/
structure Ordinary (part : List Char) : Prop where
  something : part ≠ []
  notHere : part ≠ ['.']
  notUp : part ≠ ['.', '.']
  single : '/' ∉ part

/-! ## Parts -/

theorem splitOn_slash (a b : List Char) :
    (a ++ '/' :: b).splitOn '/' = a.splitOn '/' ++ b.splitOn '/' :=
  List.splitOnP_append_cons a b (by decide)

theorem splitOn_cons {c : Char} (hc : c ≠ '/') (letters : List Char) :
    (c :: letters).splitOn '/' = (letters.splitOn '/').modifyHead (c :: ·) := by
  simp [List.splitOn_eq_splitOnP, List.splitOnP_cons_eq_if_modifyHead, hc]

theorem exists_parts (letters : List Char) : ∃ first rest, letters.splitOn '/' = first :: rest :=
  List.exists_cons_of_ne_nil (List.splitOn_ne_nil '/' letters)

theorem not_mem_of_mem_splitOn {letters part : List Char} (h : part ∈ letters.splitOn '/') :
    '/' ∉ part := by
  induction letters generalizing part with
  | nil =>
    rw [List.splitOn_nil, List.mem_singleton] at h
    simp [h]
  | cons c letters ih =>
    by_cases hc : c = '/'
    · rw [hc, ← List.nil_append ('/' :: letters), splitOn_slash, List.splitOn_nil] at h
      rcases List.mem_append.mp h with h | h
      · simp [List.mem_singleton.mp h]
      · exact ih h
    · rw [splitOn_cons hc] at h
      obtain ⟨first, rest, hparts⟩ := exists_parts letters
      rw [hparts, List.modifyHead_cons] at h
      rw [hparts] at ih
      cases h with
      | head =>
        simp only [List.mem_cons, not_or]
        exact ⟨Ne.symm hc, ih (List.mem_cons_self ..)⟩
      | tail _ h => exact ih (List.mem_cons_of_mem _ h)

theorem head?_splitOn_eq_nil_iff (letters : List Char) :
    (letters.splitOn '/').head? = some [] ↔ letters = [] ∨ letters.head? = some '/' := by
  cases letters with
  | nil => simp
  | cons c letters =>
    by_cases hc : c = '/'
    · rw [hc, ← List.nil_append ('/' :: letters), splitOn_slash]
      simp
    · obtain ⟨first, rest, hparts⟩ := exists_parts letters
      rw [splitOn_cons hc, hparts]
      simp [hc]

theorem inner?_eq_name {part : List Char} (hsomething : part ≠ []) (hhere : part ≠ ['.'])
    (hup : part ≠ ['.', '.']) : inner? part = some (.name part) := by
  rw [inner?, if_neg (by simp [hsomething, hhere]), if_neg hup]

theorem inner?_ne {part : List Char} {c : Component} (h : inner? part = some c) :
    c ≠ .root ∧ c ≠ .here := by
  unfold inner? at h
  split at h
  · cases h
  · split at h <;> cases h <;> exact ⟨nofun, nofun⟩

theorem up_mem_inners_iff (letters : List Char) :
    .up ∈ inners letters ↔ ['.', '.'] ∈ letters.splitOn '/' := by
  rw [inners, List.mem_filterMap]
  constructor
  · rintro ⟨part, hpart, hup⟩
    unfold inner? at hup
    split at hup
    · cases hup
    · split at hup
      · rename_i hdots
        exact hdots ▸ hpart
      · cases hup
  · intro h
    exact ⟨_, h, rfl⟩

theorem filterMap_inner?_eq {parts : List (List Char)} (hup : ['.', '.'] ∉ parts) :
    parts.filterMap inner? = (parts.filter fun p => p ≠ [] ∧ p ≠ ['.']).map .name := by
  induction parts with
  | nil => rfl
  | cons part parts ih =>
    obtain ⟨hpart, hparts⟩ := not_or.mp (mt List.mem_cons.mpr hup)
    by_cases hcounts : part ≠ [] ∧ part ≠ ['.']
    · rw [List.filterMap_cons_some (inner?_eq_name hcounts.1 hcounts.2 (Ne.symm hpart)), ih hparts,
        List.filter_cons_of_pos (by simpa using hcounts), List.map_cons]
    · have hnone : inner? part = none := if_pos (by tauto)
      rw [List.filterMap_cons_none hnone, ih hparts, List.filter_cons_of_neg (by simpa using hcounts)]

/-! ## Joining -/

theorem inners_slash (a b : List Char) : inners (a ++ '/' :: b) = inners a ++ inners b := by
  rw [inners, splitOn_slash, List.filterMap_append, inners, inners]

theorem front_slash (a b : List Char) : front (a ++ '/' :: b) = front (a ++ ['/']) := by
  obtain ⟨first, rest, hparts⟩ := exists_parts a
  unfold front
  rw [splitOn_slash, splitOn_slash, hparts]
  cases a <;> rfl

theorem front_slash_end {a : List Char} (h : a ≠ []) : front (a ++ ['/']) = front a := by
  obtain ⟨c, letters, rfl⟩ := List.exists_cons_of_ne_nil h
  obtain ⟨first, rest, hparts⟩ := exists_parts (c :: letters)
  unfold front
  rw [splitOn_slash, hparts]
  rfl

theorem components_join {path : String} (hrelative : path.toList.head? ≠ some '/')
    (hfront : front path.toList = []) (dir : String) :
    components (join dir path) = components dir ++ components path := by
  have hpath : components path = inners path.toList := by rw [components, hfront, List.nil_append]
  rw [join, if_neg hrelative, hpath]
  -- Whether the directory ends with a slash or gets one, it stands between the two. Only an empty
  -- directory has none.
  split
  · rename_i hend
    rcases hend with hempty | hslash
    · rw [hempty, String.empty_append, hpath]
      rfl
    · obtain ⟨a, ha⟩ := List.getLast?_eq_some_iff.mp hslash
      have hdir : inners dir.toList = inners a := by
        rw [ha, inners_slash]
        exact List.append_nil _
      have hjoin : (dir ++ path).toList = a ++ '/' :: path.toList := by
        rw [String.toList_append, ha, List.append_assoc, List.singleton_append]
      rw [components, hjoin, front_slash, inners_slash, components, hdir, ha, List.append_assoc]
  · rename_i hend
    have hdir : dir.toList ≠ [] := by
      intro hnil
      exact hend (.inl (String.toList_eq_nil_iff.mp hnil))
    have hjoin : (dir ++ "/" ++ path).toList = dir.toList ++ '/' :: path.toList := by
      rw [String.toList_append, String.toList_append, List.append_assoc]
      rfl
    rw [components, hjoin, front_slash, front_slash_end hdir, inners_slash, components,
      List.append_assoc]

/-! ## Names -/

theorem plainNames?_eq_some_iff {filename : String} {names : List (List Char)} :
    plainNames? filename = some names ↔
      ((pathParts filename).head? ≠ some [] ∧ (pathParts filename).head? ≠ some ['.'] ∧
        ['.', '.'] ∉ pathParts filename) ∧
      (pathParts filename).filter (fun p => p ≠ [] ∧ p ≠ ['.']) = names := by
  obtain ⟨first, rest, hparts⟩ : ∃ first rest, pathParts filename = first :: rest :=
    exists_parts filename.toList
  unfold plainNames?
  simp only [hparts]
  split
  · rename_i hrefused
    simp only [List.contains_iff_mem] at hrefused
    simp only [reduceCtorEq, List.head?_cons, Option.some.injEq, ne_eq, false_iff, not_and]
    rintro ⟨hnil, hhere, hup⟩
    exact absurd hrefused (by tauto)
  · rename_i hserved
    simp only [List.contains_iff_mem, not_or] at hserved
    simp only [Option.some.injEq, List.head?_cons, ne_eq]
    tauto

theorem head?_pathParts_eq_nil_iff (filename : String) :
    (pathParts filename).head? = some [] ↔ filename = "" ∨ filename.toList.head? = some '/' := by
  rw [pathParts, head?_splitOn_eq_nil_iff, String.toList_eq_nil_iff]

theorem front_eq_nil_iff (filename : String) :
    front filename.toList = [] ↔
      filename.toList.head? ≠ some '/' ∧ (pathParts filename).head? ≠ some ['.'] := by
  unfold front pathParts
  split
  · simp [*]
  · split <;> simp [*]

theorem up_mem_components_iff (filename : String) :
    .up ∈ components filename ↔ ['.', '.'] ∈ pathParts filename := by
  have hfront : .up ∉ front filename.toList := by
    unfold front
    split
    · decide
    · split <;> decide
  rw [components, List.mem_append, up_mem_inners_iff]
  exact ⟨fun h => h.resolve_left hfront, .inr⟩

theorem head?_components_eq_here_iff {filename : String}
    (hrelative : filename.toList.head? ≠ some '/') :
    (components filename).head? = some .here ↔ (pathParts filename).head? = some ['.'] := by
  by_cases hhere : (pathParts filename).head? = some ['.']
  · have hfront : front filename.toList = [.here] := (if_neg hrelative).trans (if_pos hhere)
    rw [components, hfront]
    exact iff_of_true rfl hhere
  · refine iff_of_false (fun h => ?_) hhere
    rw [components, (front_eq_nil_iff filename).mpr ⟨hrelative, hhere⟩, List.nil_append] at h
    obtain ⟨part, -, hpart⟩ := List.mem_filterMap.mp (List.mem_of_head? h)
    exact (inner?_ne hpart).2 rfl

/-- A name is served unless it is empty, or begins at the root or at the directory itself, or goes
up anywhere. -/
theorem plainNames?_isSome_iff (filename : String) :
    (plainNames? filename).isSome = true ↔
      filename ≠ "" ∧ filename.toList.head? ≠ some '/' ∧
        (components filename).head? ≠ some .here ∧ .up ∉ components filename := by
  have hsome : (plainNames? filename).isSome = true ↔
      (pathParts filename).head? ≠ some [] ∧ (pathParts filename).head? ≠ some ['.'] ∧
        ['.', '.'] ∉ pathParts filename := by
    rw [Option.isSome_iff_exists]
    simp only [plainNames?_eq_some_iff, exists_and_left, exists_eq', and_true]
  rw [hsome, up_mem_components_iff, ne_eq, head?_pathParts_eq_nil_iff, not_or]
  constructor
  · rintro ⟨⟨hempty, hrelative⟩, hhere, hup⟩
    exact ⟨hempty, hrelative, mt (head?_components_eq_here_iff hrelative).mp hhere, hup⟩
  · rintro ⟨hempty, hrelative, hhere, hup⟩
    exact ⟨⟨hempty, hrelative⟩, mt (head?_components_eq_here_iff hrelative).mpr hhere, hup⟩

section
variable {filename : String} {names : List (List Char)} (h : plainNames? filename = some names)
include h

theorem ordinary_of_served : ∀ part ∈ names, Ordinary part := by
  obtain ⟨⟨-, -, hup⟩, rfl⟩ := plainNames?_eq_some_iff.mp h
  intro part hpart
  obtain ⟨hmem, hcounts⟩ := List.mem_filter.mp hpart
  obtain ⟨hsomething, hhere⟩ := of_decide_eq_true hcounts
  exact ⟨hsomething, hhere, fun hdots => hup (hdots ▸ hmem), not_mem_of_mem_splitOn hmem⟩

theorem names_ne_nil_of_served : names ≠ [] := by
  obtain ⟨⟨hnil, hhere, -⟩, rfl⟩ := plainNames?_eq_some_iff.mp h
  obtain ⟨first, rest, hparts⟩ : ∃ first rest, pathParts filename = first :: rest :=
    exists_parts filename.toList
  rw [hparts, List.head?_cons, ne_eq, Option.some.injEq] at hnil hhere
  have hmem : first ∈ pathParts filename := hparts ▸ List.mem_cons_self ..
  exact List.ne_nil_of_mem (List.mem_filter.mpr ⟨hmem, decide_eq_true ⟨hnil, hhere⟩⟩)

theorem relative_of_served : filename.toList.head? ≠ some '/' := by
  obtain ⟨⟨hnil, -, -⟩, -⟩ := plainNames?_eq_some_iff.mp h
  exact fun hslash => hnil ((head?_pathParts_eq_nil_iff filename).mpr (.inr hslash))

theorem front_of_served : front filename.toList = [] := by
  obtain ⟨⟨-, hhere, -⟩, -⟩ := plainNames?_eq_some_iff.mp h
  exact (front_eq_nil_iff filename).mpr ⟨relative_of_served h, hhere⟩

theorem components_of_served : components filename = names.map .name := by
  obtain ⟨⟨-, -, hup⟩, hnames⟩ := plainNames?_eq_some_iff.mp h
  rw [components, front_of_served h, List.nil_append, ← hnames]
  exact filterMap_inner?_eq hup

theorem components_join_of_served (dir : String) :
    components (join dir filename) = components dir ++ names.map .name := by
  rw [components_join (relative_of_served h) (front_of_served h), components_of_served h]

end

/-! ## What is opened

Serving a request once more, where opening a file is an effect and there is no other way to a file.
With a log as the effect, the serving tells which paths were opened. -/

section
variable {S : Type} {m : Type → Type} [Monad m]

/-- Reads from the directory at `base`, where more may happen when a file is opened. -/
def readUnderWith (opening : List (List Char) → Bool → m (Option Opened)) (grants : List Grant)
    (longest : Nat) (base : List (List Char)) (filename : String) (offset count : Nat) :
    m (Except Trouble Chunk) :=
  match plainNames? filename with
  | none => pure (.error .failed)
  | some names =>
    if longest < filename.utf8ByteSize then pure (.error .failed)
    else do
      match ← opening (base ++ names) (wantsDirectory filename) with
      | some o => pure (o.read grants offset count)
      | none => pure (.error .failed)

/-- Serves one range, where more may happen when it is read. -/
def FileService.handleWith (f : FileService S)
    (reading : Reader S → String → Nat → Nat → m (Except Trouble Chunk)) (r : FileRequest) :
    m FileReply :=
  if r.count ≤ 0 ∨ r.offset < 0 then
    pure (.refused (.ofCode .badRequest s!"invalid request: {r.describe}"))
  else
    match f.readers.get? r.readerId with
    | none => pure (.refused (.ofCode .noEntry s!"fail to find reader={r.readerId.toInt}"))
    | some reader => do
      let count := if f.maxChunk < r.count then f.maxChunk else r.count
      let result ← reading reader r.filename r.offset.toInt.toNat count.toInt.toNat
      pure (replyOf reader.place r.filename result)

end

section
variable {S : Type}

/-- Opens a file, and notes its path. -/
def noted (s : Storage) (path : List (List Char)) (asDirectory : Bool) :
    StateM (List (List (List Char))) (Option Opened) := do
  modify (· ++ [path])
  return s.open? path asDirectory

/-- The reply to a request to the reader for `base`, and the paths that are opened for it. -/
def FileService.noting (f : FileService S) (grants : List Grant) (base : List (List Char))
    (s : Storage) (r : FileRequest) : FileReply × List (List (List Char)) :=
  (f.handleWith (fun _ => readUnderWith (noted s) grants s.longest base) r).run []

/-- The paths that are opened for a name: one if it is served, and none if not. -/
def openedFor (longest : Nat) (base : List (List Char)) (filename : String) : List (List (List Char)) :=
  match plainNames? filename with
  | none => []
  | some names => if longest < filename.utf8ByteSize then [] else [base ++ names]

theorem run_readUnderWith (grants : List Grant) (base : List (List Char)) (s : Storage)
    (filename : String) (offset count : Nat) (log : List (List (List Char))) :
    (readUnderWith (noted s) grants s.longest base filename offset count).run log =
      (readUnder grants base s filename offset count, log ++ openedFor s.longest base filename) := by
  unfold readUnderWith readUnder openedFor
  cases hnames : plainNames? filename with
  | none =>
    rw [List.append_nil]
    rfl
  | some names =>
    dsimp only
    split
    · rw [List.append_nil]
      rfl
    · simp only [StateT.run_bind, noted]
      cases s.open? (base ++ names) (wantsDirectory filename) <;> rfl

theorem exists_names_of_mem_openedFor {longest : Nat} {base path : List (List Char)} {filename : String}
    (h : path ∈ openedFor longest base filename) :
    ∃ names, plainNames? filename = some names ∧ path = base ++ names := by
  unfold openedFor at h
  split at h
  · cases h
  · rename_i names hnames
    split at h
    · cases h
    · exact ⟨names, hnames, List.mem_singleton.mp h⟩

variable {f : FileService S} {place : String} {base : List (List Char)} {grants : S → List Grant}
  {storage : S → Storage} {r : FileRequest}

/-- To note what is opened changes nothing else, and for a request that is out of range nothing is
opened. -/
theorem noting_eq (hreader : f.readers.get? r.readerId = some (patchyReader place base grants storage))
    (s : S) :
    f.noting (grants s) base (storage s) r =
      (f.handle s r, if r.count ≤ 0 ∨ r.offset < 0 then [] else openedFor (storage s).longest base r.filename) := by
  unfold FileService.noting FileService.handleWith FileService.handle
  split
  · rfl
  · simp only [hreader, StateT.run_bind, run_readUnderWith, patchyReader, List.nil_append]
    rfl

theorem handle_of_not_served
    (hreader : f.readers.get? r.readerId = some (patchyReader place base grants storage))
    (hcount : 1 ≤ r.count) (hoffset : 0 ≤ r.offset) (hname : plainNames? r.filename = none) (s : S) :
    f.handle s r = .refused (.ofCode .failedIo (FileService.troubleText place r.filename)) := by
  rw [FileService.handle_in_range hreader hcount hoffset]
  simp only [patchyReader, readUnder, hname]
  rfl

end

/-- Which names are served, what they denote, and what is opened: for a served name only the place
that it denotes, and for any other nothing. -/
theorem served_names_stay_inside :
    (∀ filename, (plainNames? filename).isSome = true ↔
      filename ≠ "" ∧ filename.toList.head? ≠ some '/' ∧
        (components filename).head? ≠ some .here ∧ .up ∉ components filename) ∧
    (∀ filename names, plainNames? filename = some names →
      names ≠ [] ∧ (∀ part ∈ names, Ordinary part) ∧ components filename = names.map .name ∧
        ∀ dir, components (join dir filename) = components dir ++ names.map .name) ∧
    (∀ {S : Type} {f : FileService S} {place : String} {base : List (List Char)}
      {grants : S → List Grant} {storage : S → Storage} {r : FileRequest},
      f.readers.get? r.readerId = some (patchyReader place base grants storage) → ∀ s,
        (f.noting (grants s) base (storage s) r).1 = f.handle s r ∧
        (∀ path ∈ (f.noting (grants s) base (storage s) r).2,
          ∃ names, plainNames? r.filename = some names ∧ path = base ++ names) ∧
        (1 ≤ r.count → 0 ≤ r.offset → plainNames? r.filename = none →
          (f.noting (grants s) base (storage s) r).2 = [] ∧ (f.handle s r).data = [] ∧
            (f.handle s r).refusal = some (.ofCode .failedIo (FileService.troubleText place r.filename)))) := by
  refine ⟨plainNames?_isSome_iff, fun filename names h => ⟨names_ne_nil_of_served h,
    ordinary_of_served h, components_of_served h, components_join_of_served h⟩, ?_⟩
  intro S f place base grants storage r hreader s
  have hnoting := noting_eq hreader s
  refine ⟨by rw [hnoting], fun path hpath => ?_, fun hcount hoffset hname => ?_⟩
  · rw [hnoting] at hpath
    dsimp only at hpath
    split at hpath
    · cases hpath
    · exact exists_names_of_mem_openedFor hpath
  · have hrefused := handle_of_not_served hreader hcount hoffset hname s
    refine ⟨?_, by rw [hrefused]; rfl, by rw [hrefused]; rfl⟩
    rw [hnoting, openedFor, hname, ite_self]

theorem served_names_stay_inside_climbing :
    (plainNames? "a//./.b/." = some [['a'], ['.', 'b']] ∧
      components (join "/s/." "a//./.b/.") = [.root, .name ['s'], .name ['a'], .name ['.', 'b']]) ∧
    plainNames? "f/../.." = none ∧
      (lender.noting (stutter 0) [] shelf ⟨100, "f/../..", 3, 0, false⟩).2 = [] ∧
      (lender.handle 0 ⟨100, "f/../..", 3, 0, false⟩).refusal =
        some (.ofCode .failedIo (FileService.troubleText "shelf/" "f/../..")) := by
  obtain ⟨-, hdenotes, hopens⟩ := served_names_stay_inside
  have hserved : plainNames? "a//./.b/." = some [['a'], ['.', 'b']] := by decide
  have hnot : plainNames? "f/../.." = none := by decide
  obtain ⟨-, -, -, hjoin⟩ := hdenotes _ _ hserved
  have hplace : components "/s/." = [.root, .name ['s']] := by decide
  obtain ⟨-, -, hrefused⟩ := hopens (f := lender) (r := ⟨100, "f/../..", 3, 0, false⟩) rfl 0
  obtain ⟨hnone, -, hrefusal⟩ := hrefused (by decide) (by decide) hnot
  refine ⟨⟨hserved, ?_⟩, hnot, hnone, hrefusal⟩
  rw [hjoin, hplace]
  rfl

end ClusterNet.Consensus
