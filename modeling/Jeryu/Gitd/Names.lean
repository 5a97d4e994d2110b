import Jeryu.Gitd.Ssh

/-!
The directory that a repository name stands for, on each way in.
-/

namespace Jeryu.Gitd

open KeyedMap Text

/-- `safe_join`, on the components of a path. -/
def safeJoin (root : List String) (relative : String) : Except GitdError (List String) :=
  let escapes := GitdError.invalidPath s!"path escapes root: {relative}"
  if startsWith relative "/" then .error escapes
  else (splitOn relative '/').foldlM (fun out part =>
    if part = "" || part = "." then .ok out
    else if part = ".." then .error escapes
    else .ok (out ++ [part])) root

/-- The path of `RepoManager::resolve`. -/
def RepoManager.pathOf (storageRoot : List String) (id : RepoId) : Except GitdError (List String) := do
  safeJoin (← safeJoin storageRoot id.owner) id.bareName

/-- How `git` hands a path to the remote shell. -/
def sqQuote (s : String) : String :=
  "'" ++ String.ofList (s.toList.flatMap fun c =>
    if c = '\'' || c = '!' then ['\'', '\\', c, '\''] else [c]) ++ "'"

/-- What `git` asks of `sshd` for the repository `owner/name.git`. -/
def sshCommand (service : PackService) (owner name : String) : String :=
  service.httpName ++ " " ++ sqQuote (owner ++ "/" ++ name ++ ".git")

/-- Every way in leads to the directory of `id`. -/
structure OneDirectory (owner name : String) (id : RepoId) : Prop where
  parts : RepoManager.resolveParts owner name = .ok (RepoManager.resolve id)
  partsGit : RepoManager.resolveParts owner (name ++ ".git") = .ok (RepoManager.resolve id)
  opens : ∀ (manager : RepoManager) disk, disk.lookup id.place ≠ none →
    manager.opened disk id = .ok (RepoManager.resolve id) ∧
      manager.openParts disk owner name = .ok (RepoManager.resolve id)
  canonical : ∀ (manager : RepoManager) disk,
    disk.lookup id.place ≠ none ∨ manager.redirectTarget disk id = .ok none →
      manager.canonicalParts disk owner name = .ok id
  redirect : ∀ redirects disk old, redirects old.owner old.name = some id → id ≠ old →
    disk.lookup id.place ≠ none →
      RepoManager.redirectTarget ⟨some redirects⟩ disk old = .ok (some (RepoManager.resolve id))
  ssh : ∀ service,
    (SshGitCommand.parse (sshCommand service owner name)).map SshGitCommand.repoPath = .ok id.place
  inside : ∀ storageRoot,
    RepoManager.pathOf storageRoot id = .ok (storageRoot ++ [id.owner, id.bareName])
  apart : ∀ other : RepoId, other ≠ id → other.place ≠ id.place
  stable : RepoId.new id.owner id.name = .ok id

/-- What `validate_segment` lets through. -/
structure Segment (name : String) : Prop where
  nonempty : name ≠ ""
  dot : name ≠ "."
  dots : name ≠ ".."
  slash : '/' ∉ name.toList
  backslash : '\\' ∉ name.toList
  nul : '\x00' ∉ name.toList
  dash : startsWith name "-" = false

theorem containsChars_one {c : Char} {text : List Char} : containsChars [c] text = true ↔ c ∈ text := by
  induction text with
  | nil => simp [containsChars]
  | cons first rest ih =>
    rw [containsChars, Bool.or_eq_true, ih, List.mem_cons]
    simp [List.isPrefixOf]

theorem validateSegment_ok {name field : String} : validateSegment name field = .ok () ↔ Segment name := by
  have one (sub : String) (c : Char) (same : sub.toList = [c]) : contains name sub = true ↔ c ∈ name.toList := by
    rw [contains, same]
    exact containsChars_one
  have slash := one "/" '/' rfl
  have backslash := one "\\" '\\' rfl
  have nul := one "\x00" '\x00' rfl
  unfold validateSegment
  constructor
  · intro valid
    split at valid
    · cases valid
    split at valid
    · cases valid
    split at valid
    · cases valid
    split at valid
    · cases valid
    rename_i filled undotted plain undashed
    simp only [Bool.or_eq_true, slash, backslash, nul, decide_eq_true_eq, not_or] at undotted plain
    exact ⟨filled, undotted.1, undotted.2, plain.1.1, plain.1.2, plain.2, Bool.eq_false_iff.mpr undashed⟩
  · intro segment
    have undotted : ¬ (decide (name = ".") || decide (name = "..")) = true := by
      simp [segment.dot, segment.dots]
    have plain : ¬ (contains name "/" || contains name "\\" || contains name "\x00") = true := by
      simp only [Bool.or_eq_true, slash, backslash, nul, not_or]
      exact ⟨⟨segment.slash, segment.backslash⟩, segment.nul⟩
    have undashed : ¬ startsWith name "-" = true := by simp [segment.dash]
    rw [if_neg segment.nonempty, if_neg undotted, if_neg plain, if_neg undashed]

theorem validateSegment_cases (name field : String) :
    (validateSegment name field = .ok () ∧ Segment name) ∨
      ∃ error, validateSegment name field = .error error := by
  rcases checked : validateSegment name field with error | ⟨⟩
  · exact .inr ⟨error, rfl⟩
  · exact .inl ⟨rfl, validateSegment_ok.mp checked⟩

theorem endsWith_iff {s post : String} : endsWith s post = true ↔ ∃ rest, s = rest ++ post := by
  constructor
  · intro ends
    obtain ⟨rest, same⟩ := List.isSuffixOf_iff_suffix.mp ends
    refine ⟨String.ofList rest, ?_⟩
    rw [← String.toList_inj, String.toList_append, String.toList_ofList]
    exact same.symm
  · rintro ⟨rest, rfl⟩
    rw [endsWith, String.toList_append]
    exact List.isSuffixOf_iff_suffix.mpr (List.suffix_append _ _)

@[simp] theorem withoutGit_append (name : String) : withoutGit (name ++ ".git") = name := by
  rw [withoutGit, stripSuffix_eq_some.mpr rfl]
  rfl

theorem withoutGit_eq_self {name : String} : withoutGit name = name ↔ endsWith name ".git" = false := by
  constructor
  · intro same
    by_contra ends
    obtain ⟨rest, rfl⟩ := endsWith_iff.mp (Bool.not_eq_false _ ▸ ends)
    rw [withoutGit_append] at same
    have size := congrArg (fun s : String => s.toList.length) same
    simp at size
  · intro plain
    rw [withoutGit, stripSuffix, plain]
    rfl

theorem RepoId.new_ok {owner name : String} {id : RepoId} :
    RepoId.new owner name = .ok id ↔
      Segment owner ∧ Segment (withoutGit name) ∧ id = ⟨owner, withoutGit name⟩ := by
  rcases validateSegment_cases owner "owner" with ⟨ownerOk, owned⟩ | ⟨error, failed⟩
  · rcases validateSegment_cases (withoutGit name) "repo" with ⟨nameOk, named⟩ | ⟨error, failed⟩
    · simp [RepoId.new, ownerOk, nameOk, owned, named, bind, Except.bind, pure, Except.pure, eq_comm]
    · have bad : ¬ Segment (withoutGit name) := by
        intro segment
        rw [validateSegment_ok.mpr segment] at failed
        cases failed
      simp [RepoId.new, ownerOk, failed, bad, bind, Except.bind]
  · have bad : ¬ Segment owner := by
      intro segment
      rw [validateSegment_ok.mpr segment] at failed
      cases failed
    simp [RepoId.new, failed, bad, bind, Except.bind]

/-- Neither end of `s` is a letter that is trimmed. -/
theorem trimMatches_ends {s : String} {p : Char → Bool} {first last : Char} {middle : List Char}
    (chars : s.toList = first :: middle ++ [last]) (start : p first = false) (finish : p last = false) :
    trimEndMatches (trimStartMatches s p) p = s := by
  have front : s.toList.dropWhile p = s.toList := by
    rw [chars]
    exact List.dropWhile_cons_of_neg (by simp [start])
  have back : s.toList.reverse.dropWhile p = s.toList.reverse := by
    rw [chars, List.reverse_append]
    exact List.dropWhile_cons_of_neg (by simp [finish])
  rw [trimStartMatches, front, String.ofList_toList, trimEndMatches, back, List.reverse_reverse,
    String.ofList_toList]

theorem trimMatches_absent {s : String} {c : Char} (absent : c ∉ s.toList) : trimMatches s c = s := by
  have front := dropWhile_absent absent
  have back := dropWhile_absent (show c ∉ s.toList.reverse by simpa using absent)
  rw [trimMatches, trimStartMatches, front, String.ofList_toList, trimEndMatches, back,
    List.reverse_reverse, String.ofList_toList]

theorem mem_dropWhile_other {text : List Char} {p : Char → Bool} {c : Char} (member : c ∈ text)
    (kept : p c = false) : c ∈ text.dropWhile p := by
  rw [← List.takeWhile_append_dropWhile (p := p) (l := text)] at member
  rcases List.mem_append.mp member with dropped | left
  · have := List.all_eq_true.mp (List.all_takeWhile (p := p) (l := text)) c dropped
    rw [kept] at this
    cases this
  · exact left

theorem mem_trimStartMatches {s : String} {p : Char → Bool} {c : Char} (member : c ∈ s.toList)
    (kept : p c = false) : c ∈ (trimStartMatches s p).toList := by
  rw [trimStartMatches, String.toList_ofList]
  exact mem_dropWhile_other member kept

theorem mem_trimMatches {s : String} {c other : Char} (member : c ∈ s.toList) (different : c ≠ other) :
    c ∈ (trimMatches s other).toList := by
  have kept : (fun letter => decide (letter = other)) c = false := by simp [different]
  have front := mem_trimStartMatches (p := fun letter => decide (letter = other)) member kept
  rw [trimMatches, trimEndMatches, String.toList_ofList, List.mem_reverse]
  exact mem_dropWhile_other (List.mem_reverse.mpr front) kept

theorem mem_withoutGit {s : String} {c : Char} (member : c ∈ s.toList) (other : c ∉ ".git".toList) :
    c ∈ (withoutGit s).toList := by
  by_cases ends : endsWith s ".git" = true
  · obtain ⟨rest, rfl⟩ := endsWith_iff.mp ends
    rw [withoutGit_append]
    rw [String.toList_append, List.mem_append] at member
    exact member.resolve_right other
  · rw [withoutGit_eq_self.mpr (Bool.eq_false_iff.mpr ends)]
    exact member

theorem normalizeRepoName_iff {repo directory : String} :
    normalizeRepoName repo = .ok directory ↔
      Segment (withoutGit (trimMatches repo '/')) ∧ directory = withoutGit (trimMatches repo '/') ++ ".git" := by
  rcases validateSegment_cases (withoutGit (trimMatches repo '/')) "repo" with ⟨valid, segment⟩ | ⟨error, failed⟩
  · simp [normalizeRepoName, valid, segment, bind, Except.bind, pure, Except.pure, eq_comm]
  · have bad : ¬ Segment (withoutGit (trimMatches repo '/')) := by
      intro segment
      rw [validateSegment_ok.mpr segment] at failed
      cases failed
    simp [normalizeRepoName, failed, bad, bind, Except.bind]

theorem trimEndCopies_git {name : String} (plain : endsWith name ".git" = false) :
    trimEndCopies (name ++ ".git") ".git" = name := by
  have size : (name ++ ".git").toList.length = name.toList.length + 3 + 1 := by simp
  rw [trimEndCopies, size, String.toList_append, dropEndCopies_copy, dropEndCopies_other plain,
    String.ofList_toList]

/-- The name is stripped once, and has nothing left to strip. -/
theorem resolveParts_plain {owner repo : String} (owned : Segment owner) (slash : '/' ∉ repo.toList)
    (named : Segment (withoutGit repo)) (plain : endsWith (withoutGit repo) ".git" = false) :
    RepoManager.resolveParts owner repo = .ok (RepoManager.resolve ⟨owner, withoutGit repo⟩) := by
  have trimmed := trimMatches_absent slash
  have directory : normalizeRepoName repo = .ok (withoutGit repo ++ ".git") := by
    rw [normalizeRepoName_iff, trimmed]
    exact ⟨named, rfl⟩
  have id : RepoId.new owner (withoutGit repo) = .ok ⟨owner, withoutGit repo⟩ := by
    rw [RepoId.new_ok, withoutGit_eq_self.mpr plain]
    exact ⟨owned, named, rfl⟩
  simp only [RepoManager.resolveParts, validateSegment_ok.mpr owned, directory, bind, Except.bind,
    trimEndCopies_git plain, id, pure, Except.pure]

theorem mem_splitOnP {p : Char → Bool} {c : Char} (kept : p c = false) {text : List Char}
    (member : c ∈ text) : ∃ part ∈ text.splitOnP p, c ∈ part := by
  induction text with
  | nil => cases member
  | cons first rest ih =>
    rw [List.splitOnP_cons_eq_if_modifyHead]
    by_cases separates : p first = true
    · rw [if_pos separates]
      rcases List.mem_cons.mp member with rfl | member
      · rw [kept] at separates
        cases separates
      · obtain ⟨part, there, within⟩ := ih member
        exact ⟨part, List.mem_cons_of_mem _ there, within⟩
    · rw [if_neg separates]
      rcases parts : rest.splitOnP p with _ | ⟨head, tail⟩
      · exact absurd parts (List.splitOnP_ne_nil p rest)
      rw [List.modifyHead_cons]
      rcases List.mem_cons.mp member with rfl | member
      · exact ⟨c :: head, List.mem_cons_self, List.mem_cons_self⟩
      · obtain ⟨part, there, within⟩ := ih member
        rw [parts] at there
        rcases List.mem_cons.mp there with rfl | there
        · exact ⟨first :: part, List.mem_cons_self, List.mem_cons_of_mem _ within⟩
        · exact ⟨part, List.mem_cons_of_mem _ there, within⟩

theorem splitOn_pair {owner repo : String} (owned : '/' ∉ owner.toList) (named : '/' ∉ repo.toList) :
    splitOn (owner ++ "/" ++ repo) '/' = [owner, repo] := by
  have solid (s : String) (absent : '/' ∉ s.toList) : s.toList.splitOnP (· = '/') = [s.toList] := by
    refine List.splitOnP_eq_singleton ?_
    intro c member
    exact decide_eq_false fun same => absent (same ▸ member)
  have chars : (owner ++ "/" ++ repo).toList = owner.toList ++ '/' :: repo.toList := by simp
  rw [splitOn, chars, List.splitOnP_append_cons _ _ (by simp), solid owner owned, solid repo named]
  simp

theorem splitWord_eq {word rest : String} (solid : ∀ c ∈ word.toList, isWhitespace c = false) :
    splitWord (word ++ " " ++ rest) = some (word, rest) := by
  have chars : (word ++ " " ++ rest).toList = word.toList ++ ' ' :: rest.toList := by simp
  have keeps : ∀ c ∈ word.toList, (!isWhitespace c) = true := by
    intro c member
    simp [solid c member]
  have stops : ¬ (!isWhitespace ' ') = true := by decide
  rw [splitWord, chars, List.span_eq_takeWhile_dropWhile, List.takeWhile_append_of_pos keeps,
    List.dropWhile_append_of_pos keeps,
    List.takeWhile_cons_of_neg (p := fun a => !isWhitespace a) stops,
    List.dropWhile_cons_of_neg (p := fun a => !isWhitespace a) stops]
  simp

theorem httpName_solid (service : PackService) :
    ∀ c ∈ service.httpName.toList, isWhitespace c = false := by
  have solid : service.httpName.toList.all (fun c => !isWhitespace c) = true := by
    cases service <;> decide +kernel
  intro c member
  simpa using List.all_eq_true.mp solid c member

theorem httpName_front (service : PackService) :
    ∃ rest, service.httpName.toList = 'g' :: rest := by
  cases service
  · exact ⟨_, rfl⟩
  · exact ⟨_, rfl⟩

theorem parse_httpName (service : PackService) : PackService.parse service.httpName = some service := by
  cases service <;> decide

/-- The command of `git`, after the quotes are off. -/
theorem parse_quoted (service : PackService) (inner : String) :
    SshGitCommand.parse (service.httpName ++ " " ++ ("'" ++ inner ++ "'")) =
      let repoPath := trimStartMatches (trimMatches ("'" ++ inner ++ "'") '\'') (· = '/')
      match splitOn repoPath '/' with
      | [owner, repo] => do
        validateSegment owner "owner"
        return ⟨service, owner, ← normalizeRepoName repo⟩
      | _ => throw (.invalidPath s!"ssh repo path must be owner/repo.git, got {repoPath}") := by
  have quoted : ("'" ++ inner ++ "'").toList = '\'' :: inner.toList ++ ['\''] := by simp
  have rest : trim ("'" ++ inner ++ "'") = "'" ++ inner ++ "'" := trimMatches_ends quoted rfl rfl
  have double : trimMatches ("'" ++ inner ++ "'") '"' = "'" ++ inner ++ "'" :=
    trimMatches_ends quoted rfl rfl
  obtain ⟨name, front⟩ := httpName_front service
  have whole : (service.httpName ++ " " ++ ("'" ++ inner ++ "'")).toList =
      'g' :: (name ++ ' ' :: '\'' :: inner.toList) ++ ['\''] := by
    simp [front]
  have trimmed : trim (service.httpName ++ " " ++ ("'" ++ inner ++ "'")) = _ :=
    trimMatches_ends whole (by decide) (by decide)
  generalize path : trimStartMatches (trimMatches ("'" ++ inner ++ "'") '\'') (· = '/') = repoPath
  rcases pieces : splitOn repoPath '/' with _ | ⟨owner, _ | ⟨repo, _ | ⟨more, parts⟩⟩⟩ <;>
    simp only [SshGitCommand.parse, trimmed, splitWord_eq (httpName_solid service), parse_httpName,
      rest, double, path, pieces]

theorem sqQuote_plain {s : String} (apostrophe : '\'' ∉ s.toList) (bang : '!' ∉ s.toList) :
    sqQuote s = "'" ++ s ++ "'" := by
  have same : (s.toList.flatMap fun c => if c = '\'' || c = '!' then ['\'', '\\', c, '\''] else [c]) =
      s.toList := by
    have each : ∀ c ∈ s.toList,
        (if c = '\'' || c = '!' then ['\'', '\\', c, '\''] else [c]) = [c] := by
      intro c member
      refine if_neg ?_
      simp only [Bool.or_eq_true, decide_eq_true_eq, not_or]
      exact ⟨fun eq => apostrophe (eq ▸ member), fun eq => bang (eq ▸ member)⟩
    rw [List.flatMap_congr each]
    simp
  rw [sqQuote, same, String.ofList_toList]

/-- A quoted letter leaves a backslash in the path. -/
theorem sqQuote_backslash {s : String} {c : Char} (member : c ∈ s.toList) (special : c = '\'' ∨ c = '!') :
    ∃ inner, sqQuote s = "'" ++ inner ++ "'" ∧ '\\' ∈ inner.toList := by
  refine ⟨_, rfl, ?_⟩
  rw [String.toList_ofList]
  refine List.mem_flatMap.mpr ⟨c, member, ?_⟩
  rw [if_pos (by simpa using special)]
  simp

theorem Segment.solid_front {s : String} (segment : Segment s) {rest : String} :
    (s ++ rest).toList.dropWhile (fun c => decide (c = '/')) = (s ++ rest).toList := by
  rcases chars : s.toList with _ | ⟨first, tail⟩
  · exact absurd (String.toList_inj.mp (chars.trans String.toList_empty.symm)) segment.nonempty
  · have other : first ≠ '/' := fun same => segment.slash (by simp [chars, same])
    rw [String.toList_append, chars]
    exact List.dropWhile_cons_of_neg (by simp [other])

theorem trimMatches_quotes {s : String} (absent : '\'' ∉ s.toList) (nonempty : s ≠ "") :
    trimMatches ("'" ++ s ++ "'") '\'' = s := by
  have front : ("'" ++ s ++ "'").toList.dropWhile (fun c => decide (c = '\'')) = s.toList ++ ['\''] := by
    rcases chars : s.toList with _ | ⟨first, tail⟩
    · exact absurd (String.toList_inj.mp (chars.trans String.toList_empty.symm)) nonempty
    · have other : first ≠ '\'' := fun same => absent (by simp [chars, same])
      simp [chars, other]
  have back : (s.toList ++ ['\'']).reverse.dropWhile (fun c => decide (c = '\'')) = s.toList.reverse := by
    have left := dropWhile_absent (show '\'' ∉ s.toList.reverse by simpa using absent)
    simpa using left
  rw [trimMatches, trimStartMatches, front, trimEndMatches, String.toList_ofList, back,
    List.reverse_reverse, String.ofList_toList]

/-- `git` names the repository without a letter that it would have to quote. -/
theorem ssh_plain {owner name : String} (owned : Segment owner) (named : Segment name)
    (apostrophe : '\'' ∉ (owner ++ name).toList) (bang : '!' ∉ (owner ++ name).toList)
    (service : PackService) :
    SshGitCommand.parse (sshCommand service owner name) = .ok ⟨service, owner, name ++ ".git"⟩ := by
  have shape : owner ++ "/" ++ name ++ ".git" = owner ++ "/" ++ (name ++ ".git") := String.append_assoc ..
  have apostrophe' : '\'' ∉ (owner ++ "/" ++ name ++ ".git").toList := by
    simpa using apostrophe
  have bang' : '!' ∉ (owner ++ "/" ++ name ++ ".git").toList := by
    simpa using bang
  have some : owner ++ "/" ++ name ++ ".git" ≠ "" := by
    intro blank
    have := congrArg String.toList blank
    simp at this
  have slash : '/' ∉ (name ++ ".git").toList := by
    simpa using named.slash
  have path : trimStartMatches (owner ++ "/" ++ name ++ ".git") (· = '/') =
      owner ++ "/" ++ (name ++ ".git") := by
    rw [trimStartMatches, shape, String.append_assoc, owned.solid_front, String.ofList_toList]
  have directory : normalizeRepoName (name ++ ".git") = .ok (name ++ ".git") := by
    rw [normalizeRepoName_iff, trimMatches_absent slash, withoutGit_append]
    exact ⟨named, rfl⟩
  rw [sshCommand, sqQuote_plain apostrophe' bang', parse_quoted, trimMatches_quotes apostrophe' some]
  simp only [path, splitOn_pair owned.slash slash, validateSegment_ok.mpr owned, directory, bind,
    Except.bind, pure, Except.pure]

/-- A name that `git` has to quote does not come back. -/
theorem ssh_quoted {owner name : String} {c : Char} (member : c ∈ (owner ++ name).toList)
    (special : c = '\'' ∨ c = '!') (service : PackService) (command : SshGitCommand) :
    SshGitCommand.parse (sshCommand service owner name) ≠ .ok command := by
  have within : c ∈ (owner ++ "/" ++ name ++ ".git").toList := by
    rw [String.toList_append, List.mem_append] at member
    rcases member with member | member <;> simp [member]
  obtain ⟨inner, quoted, backslash⟩ := sqQuote_backslash within special
  have whole : '\\' ∈ ("'" ++ inner ++ "'").toList := by simp [backslash]
  have unquoted : '\\' ∈ (trimMatches ("'" ++ inner ++ "'") '\'').toList :=
    mem_trimMatches whole (by decide)
  have left := mem_trimStartMatches (p := fun c => decide (c = '/')) unquoted (by decide)
  rw [sshCommand, quoted, parse_quoted]
  generalize trimStartMatches (trimMatches ("'" ++ inner ++ "'") '\'') (· = '/') = repoPath at left
  intro parsed
  have parts : ∃ part ∈ splitOn repoPath '/', '\\' ∈ part.toList := by
    obtain ⟨part, there, member⟩ := mem_splitOnP (p := fun c => decide (c = '/')) (by decide) left
    exact ⟨String.ofList part, List.mem_map_of_mem there, by rwa [String.toList_ofList]⟩
  rcases pieces : splitOn repoPath '/' with _ | ⟨owner', _ | ⟨repo, _ | ⟨more, rest⟩⟩⟩
  · simp [pieces] at parsed
  · simp [pieces] at parsed
  · simp only [pieces, bind, Except.bind] at parsed
    rcases validateSegment_cases owner' "owner" with ⟨valid, segment⟩ | ⟨error, failed⟩
    · rcases directory : normalizeRepoName repo with error | found
      · simp [valid, directory] at parsed
      · have named := (normalizeRepoName_iff.mp directory).1
        obtain ⟨part, there, bad⟩ := parts
        rw [pieces, List.mem_cons, List.mem_singleton] at there
        rcases there with rfl | rfl
        · exact segment.backslash bad
        · exact named.backslash (mem_withoutGit (mem_trimMatches bad (by decide)) (by decide))
    · simp [failed] at parsed
  · simp [pieces] at parsed

theorem safeJoin_segment {name : String} (root : List String) (nonempty : name ≠ "") (dot : name ≠ ".")
    (dots : name ≠ "..") (slash : '/' ∉ name.toList) : safeJoin root name = .ok (root ++ [name]) := by
  have relative : startsWith name "/" = false := by
    rw [Bool.eq_false_iff]
    intro starts
    obtain ⟨rest, same⟩ := List.isPrefixOf_iff_prefix.mp starts
    exact slash (by rw [← same]; simp)
  have solid : ∀ c ∈ name.toList, decide (c = '/') = false := by
    intro c member
    exact decide_eq_false fun same => slash (same ▸ member)
  have one : splitOn name '/' = [name] := by
    rw [splitOn, List.splitOnP_eq_singleton solid]
    simp
  simp [safeJoin, relative, one, nonempty, dot, dots, pure, Except.pure, bind, Except.bind]

theorem git_ne {name other : String} (short : other.toList.length < 4) : name ++ ".git" ≠ other := by
  rintro rfl
  simp at short

theorem RepoId.place_injective {id other : RepoId} (same : other.place = id.place) : other = id := by
  have owner : other.owner = id.owner := congrArg Place.owner same
  have name : other.name ++ ".git" = id.name ++ ".git" := congrArg Place.directory same
  have stripped := congrArg withoutGit name
  rw [withoutGit_append, withoutGit_append] at stripped
  cases id
  cases other
  simp_all

theorem Segment.git {name : String} (segment : Segment name) : Segment (name ++ ".git") where
  nonempty := git_ne (by decide)
  dot := git_ne (by decide)
  dots := git_ne (by decide)
  slash := by simpa using segment.slash
  backslash := by simpa using segment.backslash
  nul := by simpa using segment.nul
  dash := by
    rcases chars : name.toList with _ | ⟨first, rest⟩
    · exact absurd (String.toList_inj.mp (chars.trans String.toList_empty.symm)) segment.nonempty
    · have undashed := segment.dash
      rw [startsWith, chars] at undashed
      rw [startsWith, String.toList_append, chars]
      exact undashed

theorem Segment.of_withoutGit {name : String} (segment : Segment (withoutGit name)) : Segment name := by
  by_cases ends : endsWith name ".git" = true
  · obtain ⟨rest, rfl⟩ := endsWith_iff.mp ends
    rw [withoutGit_append] at segment
    exact segment.git
  · rwa [withoutGit_eq_self.mpr (Bool.eq_false_iff.mpr ends)] at segment

theorem RepoManager.opened_present (manager : RepoManager) {disk : Disk} {id : RepoId}
    (present : disk.lookup id.place ≠ none) : manager.opened disk id = .ok (resolve id) := by
  have there : disk.lookup (resolve id).place ≠ none := present
  simp only [opened, if_pos there, pure, Except.pure]

/-- A name that does not end in `.git`, without a letter to quote, leads to one directory. -/
theorem one_directory {owner name : String} (owned : Segment owner) (named : Segment name)
    (plain : endsWith name ".git" = false) (apostrophe : '\'' ∉ (owner ++ name).toList)
    (bang : '!' ∉ (owner ++ name).toList) : OneDirectory owner name ⟨owner, name⟩ := by
  have same := withoutGit_eq_self.mpr plain
  have stable : RepoId.new owner name = .ok ⟨owner, name⟩ :=
    RepoId.new_ok.mpr ⟨owned, by rwa [same], by rw [same]⟩
  have parts : RepoManager.resolveParts owner name = .ok (RepoManager.resolve ⟨owner, name⟩) := by
    have resolved := resolveParts_plain owned named.slash (by rwa [same]) (by rwa [same])
    rwa [same] at resolved
  have partsGit : RepoManager.resolveParts owner (name ++ ".git") =
      .ok (RepoManager.resolve ⟨owner, name⟩) := by
    have resolved := resolveParts_plain owned named.git.slash
      (by rwa [withoutGit_append]) (by rwa [withoutGit_append])
    rwa [withoutGit_append] at resolved
  refine ⟨parts, partsGit, ?_, ?_, ?_, ?_, ?_, ?_, stable⟩
  · intro manager disk present
    have there := RepoManager.opened_present manager present
    refine ⟨there, ?_⟩
    simp only [RepoManager.openParts, parts, bind, Except.bind]
    exact there
  · intro manager disk found
    by_cases present : disk.lookup (RepoId.mk owner name).place = none
    · have nowhere := found.resolve_left (not_not.mpr present)
      have absent : ¬ disk.lookup (RepoManager.resolve ⟨owner, name⟩).place ≠ none := not_not.mpr present
      simp only [RepoManager.canonicalParts, parts, bind, Except.bind, if_neg absent]
      rw [show manager.redirectTarget disk (RepoManager.resolve ⟨owner, name⟩).id = .ok none from nowhere]
      rfl
    · have there : disk.lookup (RepoManager.resolve ⟨owner, name⟩).place ≠ none := present
      simp only [RepoManager.canonicalParts, parts, bind, Except.bind, if_pos there]
      rfl
  · intro redirects disk old moved other present
    have there : ¬ disk.lookup (RepoManager.resolve ⟨owner, name⟩).place = none := present
    simp only [RepoManager.redirectTarget, moved, if_neg other, stable, bind, Except.bind, if_neg there]
    rfl
  · intro service
    rw [ssh_plain owned named apostrophe bang service]
    rfl
  · intro storageRoot
    have first := safeJoin_segment storageRoot owned.nonempty owned.dot owned.dots owned.slash
    have second := safeJoin_segment (storageRoot ++ [owner]) named.git.nonempty named.git.dot
      named.git.dots named.git.slash
    simp only [RepoManager.pathOf, first, bind, Except.bind, RepoId.bareName, second,
      List.append_assoc, List.cons_append, List.nil_append]
  · intro other different same
    exact different (RepoId.place_injective same)

/-- All ways in agree exactly on the names that neither end in `.git` nor need a quote. -/
theorem one_directory_iff {owner name : String} {id : RepoId} (accepted : RepoId.new owner name = .ok id) :
    OneDirectory owner name id ↔
      endsWith name ".git" = false ∧ '\'' ∉ (owner ++ name).toList ∧ '!' ∉ (owner ++ name).toList := by
  obtain ⟨owned, named, rfl⟩ := RepoId.new_ok.mp accepted
  constructor
  · intro agrees
    have bare := agrees.ssh .uploadPack
    rcases parsed : SshGitCommand.parse (sshCommand .uploadPack owner name) with error | command
    · rw [parsed] at bare
      cases bare
    · have apostrophe : '\'' ∉ (owner ++ name).toList := fun member =>
        ssh_quoted member (.inl rfl) _ _ parsed
      have bang : '!' ∉ (owner ++ name).toList := fun member =>
        ssh_quoted member (.inr rfl) _ _ parsed
      have directory : name ++ ".git" = withoutGit name ++ ".git" := by
        rw [ssh_plain owned named.of_withoutGit apostrophe bang] at bare
        exact congrArg Place.directory (Except.ok.inj bare)
      have stripped := congrArg withoutGit directory
      rw [withoutGit_append, withoutGit_append] at stripped
      exact ⟨withoutGit_eq_self.mp stripped.symm, apostrophe, bang⟩
  · rintro ⟨plain, apostrophe, bang⟩
    rw [withoutGit_eq_self.mpr plain] at named ⊢
    exact one_directory owned named plain apostrophe bang

theorem one_directory_iff_demo : OneDirectory "acme" "web.app" ⟨"acme", "web.app"⟩ :=
  (one_directory_iff (by decide +kernel)).mpr (by decide +kernel)

/-- One suffix is stripped where the id is made, every one where the path is resolved. -/
theorem twice_suffixed_name_diverges :
    RepoId.new "acme" "a.git.git" = .ok ⟨"acme", "a.git"⟩ ∧
      RepoManager.resolveParts "acme" "a.git.git" = .ok (RepoManager.resolve ⟨"acme", "a"⟩) ∧
      ¬ OneDirectory "acme" "a.git.git" ⟨"acme", "a.git"⟩ := by
  refine ⟨by decide +kernel, by decide +kernel, ?_⟩
  intro agrees
  have stable := agrees.stable
  revert stable
  decide +kernel

end Jeryu.Gitd
