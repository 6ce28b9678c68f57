import AiMeshChat.Lib.PosixPath
import AiMeshChat.Python

/-!
# Pulling an artifact

`validate_descriptor` and `pull_artifact` of `artifact.py`: the path that a worker names is checked
in its normal form, and handed to `scp` as it came. A `..` that the normal form cancels is still
in the path of the transfer, and a path that says nothing but `.` is taken for the root.

`pulled_below_iff` says for which paths the transfer stays below the root.
-/

namespace AiMeshChat.Transport

open Lib Lib.Posix

structure ArtifactDescriptor where
  artifactId : String
  relativePath : String
  size : ℤ
  sha256 : String
  mediaType : String := "application/octet-stream"

/-- `validate_descriptor`: the text of the `ValueError`. -/
def validateDescriptor (desc : ArtifactDescriptor) : Except String Unit :=
  let path := desc.relativePath
  if path = "" ∨ strip path.toList = [] then .error "empty relative_path"
  else if isAbs path.toList then .error ("absolute path not allowed: " ++ reprStr path)
  else
    let normalized := normpath path.toList
    if isAbs normalized then .error ("normalization produced absolute path: " ++ reprStr path)
    else if dotdot ∈ parts normalized then .error ("'..' component in path: " ++ reprStr path)
    else if (parts normalized).filter (· ≠ []) = [] then
      .error ("path resolves to root: " ++ reprStr path)
    else .ok ()

/-- What the call finds on its machine: the control socket of a host, whether it is there, and
where a program is. -/
structure PullMachine where
  socketPath : String → String
  hasSocket : String → Bool
  which : String → Option String

inductive PullErr
  | value (text : String)
  | transport (text : String)
  deriving DecidableEq

/-- `remote_root.rstrip('/')`. -/
def rstripSlash (root : List Char) : List Char := (root.reverse.dropWhile (· = '/')).reverse

/-- The path on the remote host. -/
def remotePath (remoteRoot relativePath : String) : String :=
  String.ofList (rstripSlash remoteRoot.toList) ++ "/" ++ relativePath

/-- `pull_artifact`, as far as the command that it runs. -/
def pullArtifact (m : PullMachine) (hostAlias remoteRoot : String) (desc : ArtifactDescriptor)
    (dest scpBin : String) : Except PullErr (List String) :=
  match validateDescriptor desc with
  | .error text => .error (.value text)
  | .ok () =>
    let sock := m.socketPath hostAlias
    if !m.hasSocket hostAlias then
      .error (.transport ("No ControlMaster socket for " ++ hostAlias ++ " at " ++ sock ++
        ". Run 'aimeshchat ssh warm " ++ hostAlias ++ "' first."))
    else match m.which scpBin with
      | none => .error (.transport (scpBin ++ " binary not found"))
      | some scp =>
        .ok [scp, "-o", "ControlPath=" ++ sock, "-o", "BatchMode=yes", "-o", "ConnectTimeout=10",
          hostAlias ++ ":" ++ remotePath remoteRoot desc.relativePath, dest]

/-- The operand of `scp` that names the source. -/
def scpSource (cmd : List String) : Option String := cmd.dropLast.getLast?

/-! ## Below the root -/

/-- No prefix of the path has a `..`, and its normal form is a descendant of that of the root. -/
structure Below (root path : List Char) : Prop where
  noDotdot : ∀ p, p <+: parts path → dotdot ∉ p
  sameStart : isAbs path = isAbs root
  descends : ∃ rest, rest ≠ [] ∧ normNames path = normNames root ++ rest

theorem rstripSlash_append (root : List Char) :
    ∃ n, root = rstripSlash root ++ List.replicate n '/' := by
  have hall : root.reverse.takeWhile (· = '/') =
      List.replicate (root.reverse.takeWhile (· = '/')).length '/' := by
    refine List.eq_replicate_length.mpr fun c hc => ?_
    have := List.all_eq_true.mp List.all_takeWhile c hc
    simpa using this
  refine ⟨(root.reverse.takeWhile (· = '/')).length, ?_⟩
  calc root = root.reverse.reverse := root.reverse_reverse.symm
    _ = (root.reverse.takeWhile (· = '/') ++ root.reverse.dropWhile (· = '/')).reverse := by
      rw [List.takeWhile_append_dropWhile]
    _ = rstripSlash root ++ (root.reverse.takeWhile (· = '/')).reverse := by
      rw [List.reverse_append, rstripSlash]
    _ = _ := by
      rw [hall, List.reverse_replicate, List.length_replicate]

theorem parts_slashes (path : List Char) (n : ℕ) :
    parts (path ++ List.replicate n '/') = parts path ++ List.replicate n [] := by
  induction n with
  | zero => simp
  | succ n ih =>
    rw [List.replicate_succ', ← List.append_assoc, parts_append, ih, List.append_assoc,
      List.replicate_succ']
    rfl

theorem names_rstripSlash (root : List Char) : names (rstripSlash root) = names root := by
  obtain ⟨n, hn⟩ := rstripSlash_append root
  have hempty : (List.replicate n ([] : Name)).filter (fun c => Leads c) = [] := by
    refine List.filter_eq_nil_iff.mpr fun c hc => ?_
    rw [List.eq_of_mem_replicate hc]
    decide
  have hnames : names (rstripSlash root ++ List.replicate n '/') = names (rstripSlash root) := by
    rw [names, parts_slashes, List.filter_append, hempty, List.append_nil, names]
  rw [← hnames, ← hn]

theorem isAbs_remote (root more : List Char) :
    isAbs (rstripSlash root ++ '/' :: more) = isAbs root ↔ root ≠ [] := by
  obtain ⟨n, hn⟩ := rstripSlash_append root
  cases hr : rstripSlash root with
  | nil =>
    rw [hr, List.nil_append] at hn
    cases n with
    | zero =>
      subst hn
      simp [isAbs]
    | succ n =>
      rw [hn]
      simp [isAbs, List.replicate_succ]
  | cons c cs =>
    rw [hr] at hn
    rw [hn]
    simp [isAbs]

theorem below_remote_iff (root rel : List Char) :
    Below root (rstripSlash root ++ '/' :: rel) ↔
      root ≠ [] ∧ dotdot ∉ parts root ∧ dotdot ∉ parts rel ∧ names rel ≠ [] := by
  have hroot : dotdot ∈ parts (rstripSlash root) ↔ dotdot ∈ parts root := by
    rw [← dotdot_mem_names, names_rstripSlash, dotdot_mem_names]
  have hparts : dotdot ∈ parts (rstripSlash root ++ '/' :: rel) ↔
      dotdot ∈ parts root ∨ dotdot ∈ parts rel := by
    rw [parts_append, List.mem_append, hroot]
  have hnorm (h : dotdot ∉ parts (rstripSlash root ++ '/' :: rel)) :
      normNames (rstripSlash root ++ '/' :: rel) = normNames root ++ names rel := by
    have hno : dotdot ∉ parts root := fun hr => h (hparts.mpr (.inl hr))
    rw [normNames_eq h, names_append, names_rstripSlash, normNames_eq hno]
  constructor
  · intro h
    have hno := h.noDotdot _ List.prefix_rfl
    obtain ⟨rest, hne, hrest⟩ := h.descends
    rw [hnorm hno] at hrest
    refine ⟨(isAbs_remote root rel).mp h.sameStart, fun hr => hno (hparts.mpr (.inl hr)),
      fun hr => hno (hparts.mpr (.inr hr)), ?_⟩
    rw [List.append_cancel_left hrest]
    exact hne
  · rintro ⟨hne, hroot', hrel, hnames⟩
    have hno : dotdot ∉ parts (rstripSlash root ++ '/' :: rel) := by
      intro h
      rcases hparts.mp h with h | h
      · exact hroot' h
      · exact hrel h
    exact ⟨fun p hp hm => hno (hp.subset hm), (isAbs_remote root rel).mpr hne, _, hnames, hnorm hno⟩

theorem pulled_source {m : PullMachine} {hostAlias remoteRoot : String} {desc : ArtifactDescriptor}
    {dest scpBin : String} {cmd : List String}
    (h : pullArtifact m hostAlias remoteRoot desc dest scpBin = .ok cmd) (path : String) :
    scpSource cmd = some (hostAlias ++ ":" ++ path) ↔
      path.toList = rstripSlash remoteRoot.toList ++ '/' :: desc.relativePath.toList := by
  have hsource : scpSource cmd =
      some (hostAlias ++ ":" ++ remotePath remoteRoot desc.relativePath) := by
    unfold pullArtifact at h
    split at h
    · cases h
    · dsimp only at h
      split at h
      · cases h
      · split at h
        · cases h
        · cases h
          rfl
  have hpath : (remotePath remoteRoot desc.relativePath).toList =
      rstripSlash remoteRoot.toList ++ '/' :: desc.relativePath.toList := by
    simp [remotePath]
  rw [hsource, ← hpath, Option.some.injEq, ← String.toList_inj, String.toList_append,
    String.toList_append (s := hostAlias ++ ":"), List.append_cancel_left_eq]
  exact eq_comm

/-- **An artifact is pulled from below the root** if and only if neither path has a `..`, the root
is not empty, and the relative path has a name. -/
theorem pulled_below_iff {m : PullMachine} {hostAlias remoteRoot : String}
    {desc : ArtifactDescriptor} {dest scpBin : String} {cmd : List String}
    (h : pullArtifact m hostAlias remoteRoot desc dest scpBin = .ok cmd) :
    (∃ path, scpSource cmd = some (hostAlias ++ ":" ++ path) ∧
        Below remoteRoot.toList path.toList) ↔
      remoteRoot ≠ "" ∧ dotdot ∉ parts remoteRoot.toList ∧
        dotdot ∉ parts desc.relativePath.toList ∧ names desc.relativePath.toList ≠ [] := by
  have hroot : remoteRoot ≠ "" ↔ remoteRoot.toList ≠ [] := by
    rw [ne_eq, ne_eq, String.toList_eq_nil_iff]
  rw [hroot, ← below_remote_iff]
  simp only [pulled_source h]
  constructor
  · rintro ⟨path, hpath, hbelow⟩
    rw [← hpath]
    exact hbelow
  · intro hbelow
    refine ⟨String.ofList (rstripSlash remoteRoot.toList ++ '/' :: desc.relativePath.toList), ?_⟩
    rw [String.toList_ofList]
    exact ⟨rfl, hbelow⟩

/-- A machine with everything that the call needs. -/
def readyMachine : PullMachine := ⟨fun _ => "/run/ssh.sock", fun _ => true, fun _ => some "/bin/scp"⟩

/-- The command for an artifact of the host `h` below `/srv`. -/
def pullFrom (relativePath : String) : Except PullErr (List String) :=
  pullArtifact readyMachine "h" "/srv" ⟨"a1", relativePath, 0, "", "text/plain"⟩ "/tmp/a1" "scp"

theorem pulled_below_file : ∃ cmd, pullFrom "a/./b" = .ok cmd ∧
    ∃ path, scpSource cmd = some ("h" ++ ":" ++ path) ∧ Below "/srv".toList path.toList := by
  obtain ⟨cmd, hcmd⟩ : ∃ cmd, pullFrom "a/./b" = .ok cmd := ⟨_, rfl⟩
  exact ⟨cmd, hcmd, (pulled_below_iff hcmd).mpr ⟨by decide, by decide, by decide, by decide⟩⟩

/-- A `..` that the normal form cancels is in the path of the transfer. -/
theorem pulled_dotdot : ¬ ∀ relativePath cmd, pullFrom relativePath = .ok cmd →
    ∃ path, scpSource cmd = some ("h" ++ ":" ++ path) ∧ Below "/srv".toList path.toList := by
  intro h
  obtain ⟨cmd, hcmd⟩ : ∃ cmd, pullFrom "a/b/.." = .ok cmd := ⟨_, rfl⟩
  obtain ⟨path, hsource, hbelow⟩ := h "a/b/.." cmd hcmd
  rw [(pulled_source hcmd path).mp hsource] at hbelow
  exact ((below_remote_iff _ _).mp hbelow).2.2.1 (by decide)

end AiMeshChat.Transport
