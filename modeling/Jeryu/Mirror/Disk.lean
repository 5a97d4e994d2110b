import Jeryu.Library.FileTree
import Jeryu.Mirror.Bundle

/-!
An offline bundle on disk: written, read back and verified.
-/

namespace Jeryu.Mirror

open FileTree Text

/-- A step of writing a bundle, below its directory. -/
inductive DiskStep where
  | createDirAll (dir : List String)
  | write (file : BundleFile)

def DiskStep.file : DiskStep → Option BundleFile
  | .createDirAll _ => none
  | .write file => some file

def filesOf (steps : List DiskStep) : List BundleFile := steps.filterMap DiskStep.file

@[simp] theorem filesOf_createDirAll (dir : List String) (rest : List DiskStep) :
    filesOf (.createDirAll dir :: rest) = filesOf rest := rfl

@[simp] theorem filesOf_write (file : BundleFile) (rest : List DiskStep) :
    filesOf (.write file :: rest) = file :: filesOf rest := rfl

@[simp] theorem filesOf_append (steps rest : List DiskStep) :
    filesOf (steps ++ rest) = filesOf steps ++ filesOf rest := List.filterMap_append

theorem filesOf_map_write (files : List BundleFile) : filesOf (files.map .write) = files := by
  induction files with
  | nil => rfl
  | cons file rest ih => simp [ih]

def RepositoryArchive.dir (repo : RepositoryArchive) : List String :=
  ["repos", safe repo.owner, safe repo.name]

def BundleFile.dir (file : BundleFile) : List String := file.path.dropLast

def BundleFile.name (file : BundleFile) : String := file.path.getLast?.getD ""

/-- The tree, and where files have been written. -/
structure Disk where
  tree : Tree
  written : List Location

def DiskStep.run (path : List String) (disk : Disk) : DiskStep → Except Errno Disk
  | .createDirAll dir => do
    let tree ← disk.tree.createDirAll (path ++ dir)
    .ok { disk with tree := tree }
  | .write file => do
    let (location, tree) ← disk.tree.write (path ++ file.dir) file.name file.bytes
    .ok { tree := tree, written := disk.written ++ [location] }

section Writing

variable (encoding : Encoding)

def repositorySteps (repo : RepositoryArchive) : List DiskStep :=
  .createDirAll repo.dir :: (repositoryFiles encoding repo).map .write

/-- The archive is sorted. -/
def bundleSteps (archive : Archive) : List DiskStep :=
  [.write ⟨["JERYU_BUNDLE"], MARKER.toUTF8.toList⟩,
    .write ⟨["archive.json"], encoding.pretty (.archive archive)⟩] ++
    archive.repositories.flatMap (repositorySteps encoding) ++
    [.createDirAll ["docs"],
      .write ⟨["docs", "restore-instructions.md"], (restoreInstructions encoding archive).toUTF8.toList⟩,
      .write ⟨["manifest.json"], encoding.pretty (.manifest (manifestOf encoding archive))⟩]

def clear (tree : Tree) (path : List String) : Except Errno Tree :=
  if (tree.find path).isSome then tree.removeDirAll path else .ok tree

/-- `write_bundle`, at a path from the root. -/
def writeBundleTo (tree : Tree) (path : List String) (archive : Archive) : Except Errno Disk := do
  let tree ← clear tree path
  let tree ← tree.createDirAll path
  (bundleSteps encoding archive.sortForDeterminism).foldlM (DiskStep.run path) ⟨tree, []⟩

theorem filesOf_repositories (repos : List RepositoryArchive) :
    filesOf (repos.flatMap (repositorySteps encoding)) = repos.flatMap (repositoryFiles encoding) := by
  induction repos with
  | nil => rfl
  | cons repo rest ih => simp [repositorySteps, filesOf_map_write, ih]

/-- The steps write the files of the bundle. -/
theorem filesOf_bundleSteps (archive : Archive) :
    filesOf (bundleSteps encoding archive.sortForDeterminism) = (writeBundle encoding archive).1 := by
  simp only [bundleSteps, filesOf_append, filesOf_write, filesOf_createDirAll, filesOf_repositories]
  rfl

end Writing

/-- An encoding with the way back. -/
structure Codec extends Encoding where
  parseArchive : List UInt8 → Option Archive
  parseManifest : List UInt8 → Option BundleManifest

inductive BundleError where
  | io (error : Errno)
  | json
  | invalidBundle (message : String)

structure BundleVerification where
  ok : Bool
  expectedDigest : String
  actualDigest : String
  filesChecked : List String
  errors : List String

section Reading

variable (codec : Codec) (tree : Tree) (path : List String)

def readJson {α : Type} (parse : List UInt8 → Option α) (name : String) : Except BundleError α :=
  match tree.read (path ++ [name]) with
  | .error error => .error (.io error)
  | .ok text =>
    match parse text with
    | some value => .ok value
    | none => .error .json

def readBundle : Except BundleError Archive :=
  match tree.read (path ++ ["JERYU_BUNDLE"]) with
  | .error error => .error (.io error)
  | .ok marker =>
    if marker ≠ MARKER.toUTF8.toList then
      .error (.invalidBundle "marker does not match JeryuMirror v1")
    else match readJson tree path codec.parseArchive "archive.json" with
      | .error error => .error error
      | .ok archive =>
        if archive.format ≠ BUNDLE_FORMAT then
          .error (.invalidBundle "archive format is not supported")
        else .ok archive

/-- `Path::join`: a text that starts at the root stays there. -/
def join (text : String) : List String :=
  if startsWith text "/" then splitOn text '/' else path ++ splitOn text '/'

def verifyBundle : Except BundleError BundleVerification := do
  let manifest ← readJson tree path codec.parseManifest "manifest.json"
  let archive ← readBundle codec tree path
  let actual := archive.canonicalDigest codec.toEncoding
  let errors :=
    (if manifest.format ≠ BUNDLE_FORMAT then ["manifest format is not supported"] else []) ++
    (if actual ≠ manifest.archiveDigest then
      ["archive digest mismatch: expected " ++ manifest.archiveDigest ++ ", actual " ++ actual] else []) ++
    (manifest.files.filter fun file => (tree.find (join path file)).isNone).map ("missing file " ++ ·)
  return { ok := errors.isEmpty
           expectedDigest := manifest.archiveDigest
           actualDigest := actual
           filesChecked := manifest.files
           errors := errors }

end Reading

section Runs

variable {path : List String} {disk disk' : Disk} {files : List BundleFile}

/-- Where the file of a bundle in the directory `path` comes to stand. -/
def BundleFile.place (path : List String) (file : BundleFile) : Location :=
  normal (path ++ file.dir) ++ [file.name]

/-- The files have been written, one after the other. -/
structure Filed (path : List String) (files : List BundleFile) (disk : Disk) : Prop where
  each : ∀ file ∈ files, ∃ bytes, disk.tree (file.place path) = some (.file bytes)
  only : ∀ file ∈ files, ∀ bytes, disk.tree (file.place path) = some (.file bytes) →
    ∃ other ∈ files, other.place path = file.place path ∧ other.bytes = bytes
  dirs : ∀ file ∈ files, disk.tree.isDir (path ++ file.dir)
  written : disk.written = files.map (BundleFile.place path)

theorem filed_nil (tree : Tree) : Filed path [] ⟨tree, []⟩ where
  each _ member := by cases member
  only _ member := by cases member
  dirs _ member := by cases member
  written := rfl

theorem isDir_keeps {tree tree' : Tree} {dir : List String} (keeps : KeepsDirs tree tree')
    (stands : tree.isDir dir) : tree'.isDir dir :=
  isDir_iff.mpr (keeps.resolve (isDir_iff.mp stands))

theorem Filed.makeDir {dir : List String} (filed : Filed path files disk)
    (made : DiskStep.run path disk (.createDirAll dir) = .ok disk') :
    Filed path files disk' ∧ KeepsDirs disk.tree disk'.tree := by
  unfold DiskStep.run at made
  cases created : disk.tree.createDirAll (path ++ dir) with
  | error error => simp [created, bind, Except.bind] at made
  | ok tree =>
    simp only [created, bind, Except.bind] at made
    cases made
    obtain ⟨extend, -⟩ := createDirAll_ok created
    refine ⟨⟨?_, ?_, ?_, filed.written⟩, extend.keepsDirs⟩
    · intro file member
      obtain ⟨bytes, stands⟩ := filed.each file member
      exact ⟨bytes, extend.file.mpr stands⟩
    · intro file member bytes stands
      exact filed.only file member bytes (extend.file.mp stands)
    · intro file member
      exact isDir_keeps extend.keepsDirs (filed.dirs file member)

theorem Filed.put {file : BundleFile} (filed : Filed path files disk)
    (made : DiskStep.run path disk (.write file) = .ok disk') :
    Filed path (files ++ [file]) disk' ∧ KeepsDirs disk.tree disk'.tree := by
  unfold DiskStep.run at made
  cases wrote : disk.tree.write (path ++ file.dir) file.name file.bytes with
  | error error => simp [wrote, bind, Except.bind] at made
  | ok result =>
    obtain ⟨location, tree⟩ := result
    simp only [wrote, bind, Except.bind] at made
    cases made
    obtain ⟨rfl, stands, free, rfl⟩ := write_ok wrote
    have keeps : KeepsDirs disk.tree (disk.tree.put _ (.file file.bytes)) := keepsDirs_put free
    have here (other : BundleFile) : (disk.tree.put (file.place path) (.file file.bytes)) (other.place path) =
        if other.place path = file.place path then some (.file file.bytes)
        else disk.tree (other.place path) := rfl
    refine ⟨⟨?_, ?_, ?_, ?_⟩, keeps⟩
    · intro other member
      show ∃ bytes, disk.tree.put (file.place path) _ _ = _
      rw [here]
      by_cases same : other.place path = file.place path
      · exact ⟨file.bytes, by simp [same]⟩
      · rcases List.mem_append.mp member with old | new
        · obtain ⟨bytes, found⟩ := filed.each other old
          exact ⟨bytes, by simp [same, found]⟩
        · rw [List.mem_singleton] at new
          exact absurd (by rw [new]) same
    · intro other member bytes found
      have found : disk.tree.put (file.place path) _ (other.place path) = some (.file bytes) := found
      rw [here] at found
      by_cases same : other.place path = file.place path
      · simp only [same, if_true, Option.some.injEq, Node.file.injEq] at found
        exact ⟨file, by simp, same.symm, found⟩
      · simp only [same, if_false] at found
        rcases List.mem_append.mp member with old | new
        · obtain ⟨earlier, member, place, bytes⟩ := filed.only other old bytes found
          exact ⟨earlier, List.mem_append_left _ member, place, bytes⟩
        · rw [List.mem_singleton] at new
          exact absurd (by rw [new]) same
    · intro other member
      rcases List.mem_append.mp member with old | new
      · exact isDir_keeps keeps (filed.dirs other old)
      · rw [List.mem_singleton] at new
        rw [new]
        exact isDir_keeps keeps stands
    · simp [filed.written, BundleFile.place]

theorem Filed.run {steps : List DiskStep} (filed : Filed path files disk)
    (ran : steps.foldlM (DiskStep.run path) disk = .ok disk') :
    Filed path (files ++ filesOf steps) disk' ∧ KeepsDirs disk.tree disk'.tree := by
  induction steps generalizing files disk with
  | nil =>
    cases ran
    have none : files ++ filesOf [] = files := List.append_nil files
    rw [none]
    exact ⟨filed, .refl _⟩
  | cons step rest ih =>
    rw [List.foldlM_cons] at ran
    cases first : DiskStep.run path disk step with
    | error error => simp [first, bind, Except.bind] at ran
    | ok between =>
      simp only [first, bind, Except.bind] at ran
      cases step with
      | createDirAll dir =>
        obtain ⟨filed', keeps⟩ := filed.makeDir first
        obtain ⟨after, keeps'⟩ := ih filed' ran
        exact ⟨by simpa using after, keeps.trans keeps'⟩
      | write file =>
        obtain ⟨filed', keeps⟩ := filed.put first
        obtain ⟨after, keeps'⟩ := ih filed' ran
        exact ⟨by simpa using after, keeps.trans keeps'⟩

/-- A file stands as written if whatever was written to its place was the same. -/
theorem Filed.stands {file : BundleFile} (filed : Filed path files disk) (member : file ∈ files)
    (same : ∀ other ∈ files, other.place path = file.place path → other.bytes = file.bytes) :
    disk.tree (file.place path) = some (.file file.bytes) := by
  obtain ⟨bytes, stands⟩ := filed.each file member
  obtain ⟨other, otherMember, place, wrote⟩ := filed.only file member bytes stands
  rw [← wrote, same other otherMember place] at stands
  exact stands

theorem BundleFile.path_eq {file : BundleFile} (whole : file.path ≠ []) : file.path = file.dir ++ [file.name] := by
  have last := List.dropLast_append_getLast whole
  simp [BundleFile.dir, BundleFile.name, List.getLast?_eq_some_getLast whole, last]

theorem Filed.find {file : BundleFile} (filed : Filed path files disk) (member : file ∈ files)
    (whole : file.path ≠ []) (plain : ¬ Dots file.name)
    (stands : disk.tree (file.place path) = some (.file file.bytes)) :
    disk.tree.find (path ++ file.path) = some (.file file.bytes) := by
  rw [BundleFile.path_eq whole, ← List.append_assoc]
  exact find_file (filed.dirs file member) plain stands

end Runs

end Jeryu.Mirror
