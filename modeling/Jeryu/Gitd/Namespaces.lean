import Mathlib.Data.List.Induction
import Jeryu.Gitd.Registry

/-!
A credential opens the repositories of the owner it was made for, and of no other, unless it was
made for the login of the local operator.
-/

namespace Jeryu.Gitd

open KeyedMap Text

theorem hexDigit_hex {n : Nat} (small : n < 16) : isLowercaseHexdigit (hexDigit n) = true := by
  revert n
  decide

theorem hexDigit_injective {n k : Nat} (small : n < 16) (small' : k < 16)
    (same : hexDigit n = hexDigit k) : n = k := by
  have table : ∀ n < 16, ∀ k < 16, hexDigit n = hexDigit k → n = k := by decide
  exact table n small k small' same

theorem byte_halves (byte : UInt8) : byte.toNat / 16 < 16 ∧ byte.toNat % 16 < 16 := by
  have bound := byte.toNat_lt
  omega

theorem hexByte_injective {byte byte' : UInt8} (same : hexByte byte = hexByte byte') :
    byte = byte' := by
  obtain ⟨high, low⟩ := byte_halves byte
  obtain ⟨high', low'⟩ := byte_halves byte'
  simp only [hexByte, List.cons.injEq, and_true] at same
  have upper := hexDigit_injective high high' same.1
  have lower := hexDigit_injective low low' same.2
  have value : byte.toNat = byte'.toNat := by omega
  exact UInt8.toNat_inj.mp value

theorem hex_injective {bytes bytes' : List UInt8}
    (same : bytes.flatMap hexByte = bytes'.flatMap hexByte) : bytes = bytes' := by
  induction bytes generalizing bytes' with
  | nil =>
    cases bytes' with
    | nil => rfl
    | cons byte rest => simp [hexByte] at same
  | cons byte rest ih =>
    cases bytes' with
    | nil => simp [hexByte] at same
    | cons byte' rest' =>
      rw [List.flatMap_cons, List.flatMap_cons] at same
      obtain ⟨first, tail⟩ := List.append_inj same rfl
      rw [hexByte_injective first, ih tail]

/-- What the registry relies on. -/
structure Digest (sha256 : List UInt8 → List UInt8) : Prop where
  injective : Function.Injective sha256
  nonempty : ∀ input, sha256 input ≠ []

section Token

variable {sha256 : List UInt8 → List UInt8}

theorem Digest.hex_injective (digest : Digest sha256) : Function.Injective (sha256Hex sha256) := by
  intro input input' same
  exact digest.injective (Gitd.hex_injective (String.ofList_injective same))

theorem sha256Hex_digits (input : List UInt8) :
    ∀ c ∈ (sha256Hex sha256 input).toList, isLowercaseHexdigit c = true := by
  intro c member
  rw [sha256Hex, String.toList_ofList] at member
  obtain ⟨byte, -, member⟩ := List.mem_flatMap.mp member
  obtain ⟨high, low⟩ := byte_halves byte
  simp only [hexByte, List.mem_cons, List.not_mem_nil, or_false] at member
  rcases member with rfl | rfl
  · exact hexDigit_hex high
  · exact hexDigit_hex low

theorem Digest.hex_ne (digest : Digest sha256) (input : List UInt8) : sha256Hex sha256 input ≠ "" := by
  intro blank
  have chars : (sha256 input).flatMap hexByte = [] := by
    rw [← String.toList_ofList (l := (sha256 input).flatMap hexByte)]
    exact congrArg String.toList blank
  rcases bytes : sha256 input with _ | ⟨byte, rest⟩
  · exact digest.nonempty input bytes
  · simp [bytes, hexByte] at chars

/-- Of random tokens, and of the ids cut from them. -/
def Hex (s : String) : Prop := ∀ c ∈ s.toList, isLowercaseHexdigit c = true

theorem hex_not {c d : Char} (digit : isLowercaseHexdigit c = true) (other : isLowercaseHexdigit d = false) :
    c ≠ d := by
  rintro rfl
  simp [other] at digit

theorem hexdigit_solid {c : Char} (digit : isLowercaseHexdigit c = true) : isWhitespace c = false := by
  simp only [isLowercaseHexdigit, isAsciiDigit, Bool.or_eq_true, Bool.and_eq_true,
    decide_eq_true_eq, Char.le_def, UInt32.le_iff_toNat_le] at digit
  have range : 48 ≤ c.toNat ∧ c.toNat ≤ 102 := by
    rcases digit with ⟨low, high⟩ | ⟨low, high⟩
    · exact ⟨low, Nat.le_trans high (by decide)⟩
    · exact ⟨Nat.le_trans (by decide) low, high⟩
  simp only [isWhitespace, Bool.or_eq_false_iff, Bool.and_eq_false_iff, decide_eq_false_iff_not]
  omega

end Token

namespace AuthRegistry

variable (registry : AuthRegistry)

theorem pats_unique {first second : String × PatRecord} (member : first ∈ registry.pats)
    (member' : second ∈ registry.pats) (same : first.1 = second.1) : first = second := by
  have apart : registry.pats.Pairwise fun first second => first.1 ≠ second.1 :=
    registry.sorted.imp fun below => ne_of_lt below
  have symmetric : Std.Symm fun first second : String × PatRecord => first.1 ≠ second.1 :=
    ⟨fun _ _ different => different.symm⟩
  by_contra different
  exact apart.forall member member' different same

theorem pat_eq_some {id : String} {record : PatRecord} :
    registry.pat id = some record ↔ (id, record) ∈ registry.pats := by
  constructor
  · intro found
    obtain ⟨entry, first, rfl⟩ := Option.map_eq_some_iff.mp found
    have named := List.find?_some first
    simp only [decide_eq_true_eq] at named
    exact named ▸ List.mem_of_find?_eq_some first
  · intro member
    have some : (registry.pats.find? fun entry => entry.1 = id).isSome := by
      rw [List.find?_isSome]
      exact ⟨_, member, by simp⟩
    obtain ⟨entry, first⟩ := Option.isSome_iff_exists.mp some
    have named := List.find?_some first
    simp only [decide_eq_true_eq] at named
    have same := registry.pats_unique (List.mem_of_find?_eq_some first) member named
    rw [pat, first, same, Option.map_some]

theorem mem_insertPat {id : String} {record : PatRecord} {entry : String × PatRecord} :
    entry ∈ (registry.insertPat id record).pats ↔
      entry = (id, record) ∨ (entry ∈ registry.pats ∧ entry.1 ≠ id) := by
  simp only [insertPat, List.mem_append, List.mem_cons, List.mem_filter, decide_eq_true_eq]
  constructor
  · rintro (⟨member, below⟩ | rfl | ⟨member, above⟩)
    · exact .inr ⟨member, ne_of_lt below⟩
    · exact .inl rfl
    · exact .inr ⟨member, (ne_of_lt above).symm⟩
  · rintro (rfl | ⟨member, other⟩)
    · exact .inr (.inl rfl)
    · rcases lt_or_gt_of_ne other with below | above
      · exact .inl ⟨member, below⟩
      · exact .inr (.inr ⟨member, above⟩)

end AuthRegistry

section Records

variable {sha256 : List UInt8 → List UInt8}

def PatRecord.of (sha256 : List UInt8 → List UInt8) (secret owner : String) (scopes : List String) :
    PatRecord :=
  ⟨sha256Hex sha256 secret.toUTF8.toList, ⟨owner, scopes⟩⟩

namespace Copy

/-- The calls of the copy each drew their own id and their own secret. -/
structure Distinct (copy : Copy sha256) : Prop where
  ids : (copy.grants.filterMap Grant.patId).Nodup
  secrets : (copy.grants.filterMap Grant.secret).Nodup
  hex : ∀ pat owner scopes, .pat pat owner scopes ∈ copy.grants →
    Hex pat.id ∧ Hex pat.secret ∧ pat.secret ≠ ""

/-- The presented string is the token of a call, or its bare secret. -/
def Minted (copy : Copy sha256) (token owner : String) (scopes : List String) : Prop :=
  ∃ pat, .pat pat owner scopes ∈ copy.grants ∧ (trim token = pat.token ∨ trim token = pat.secret)

end Copy

/-- The last call about the key was for `owner`. -/
def LastRegistered (grants : List Grant) (fingerprint owner : String) : Prop :=
  ∃ before after, grants = before ++ .sshKey fingerprint owner :: after ∧
    ∀ grant ∈ after, grant.fingerprint ≠ some fingerprint

/-- The records of `grants`. -/
def recordsOf (sha256 : List UInt8 → List UInt8) (grants : List Grant) : AuthRegistry :=
  grants.foldl (AuthRegistry.enter sha256) .empty

theorem recordsOf_snoc (grants : List Grant) (grant : Grant) :
    recordsOf sha256 (grants ++ [grant]) = (recordsOf sha256 grants).enter sha256 grant := by
  rw [recordsOf, List.foldl_append]
  rfl

theorem mem_recordsOf {grants : List Grant} (ids : (grants.filterMap Grant.patId).Nodup)
    {entry : String × PatRecord} :
    entry ∈ (recordsOf sha256 grants).pats ↔ ∃ pat owner scopes, .pat pat owner scopes ∈ grants ∧
      entry = (pat.id, .of sha256 pat.secret owner scopes) := by
  induction grants using List.reverseRecOn with
  | nil => simp [recordsOf, AuthRegistry.empty]
  | append_singleton grants grant ih =>
    rw [List.filterMap_append, List.nodup_append] at ids
    have known := ih ids.1
    rw [recordsOf_snoc]
    cases grant with
    | sshKey fingerprint owner =>
      have rest : entry ∈ ((recordsOf sha256 grants).enter sha256 (.sshKey fingerprint owner)).pats ↔
          entry ∈ (recordsOf sha256 grants).pats := Iff.rfl
      simp [rest, known]
    | pat minted owner scopes =>
      have fresh : ∀ pat owner scopes, Grant.pat pat owner scopes ∈ grants → pat.id ≠ minted.id := by
        intro pat owner' scopes' member
        refine ids.2.2 pat.id ?_ minted.id ?_
        · exact List.mem_filterMap.mpr ⟨_, member, rfl⟩
        · simp [Grant.patId]
      have added : entry ∈ ((recordsOf sha256 grants).enter sha256 (.pat minted owner scopes)).pats ↔ _ :=
        AuthRegistry.mem_insertPat _
      rw [added, known]
      constructor
      · rintro (rfl | ⟨⟨pat, owner', scopes', member, rfl⟩, -⟩)
        · exact ⟨minted, owner, scopes, by simp, rfl⟩
        · exact ⟨pat, owner', scopes', by simp [member], rfl⟩
      · rintro ⟨pat, owner', scopes', member, rfl⟩
        rcases List.mem_append.mp member with member | last
        · exact .inr ⟨⟨pat, owner', scopes', member, rfl⟩, fresh _ _ _ member⟩
        · have same : Grant.pat pat owner' scopes' = .pat minted owner scopes := by simpa using last
          cases same
          exact .inl rfl

theorem not_lastRegistered_nil {fingerprint owner : String} : ¬ LastRegistered [] fingerprint owner := by
  rintro ⟨before, after, same, -⟩
  simp at same

theorem lastRegistered_snoc {grants : List Grant} {grant : Grant} {fingerprint owner : String} :
    LastRegistered (grants ++ [grant]) fingerprint owner ↔
      grant = .sshKey fingerprint owner ∨
        (grant.fingerprint ≠ some fingerprint ∧ LastRegistered grants fingerprint owner) := by
  constructor
  · rintro ⟨before, after, same, later⟩
    rcases List.eq_nil_or_concat after with rfl | ⟨init, last, rfl⟩
    · have ends := List.append_inj' same rfl
      exact .inl (by simpa using ends.2)
    · rw [List.concat_eq_append, ← List.cons_append, ← List.append_assoc] at same
      have ends := List.append_inj' same rfl
      have final : grant = last := by simpa using ends.2
      refine .inr ⟨later grant (by simp [final]), before, init, ends.1, ?_⟩
      intro other member
      exact later other (by simp [member])
  · rintro (rfl | ⟨other, before, after, rfl, later⟩)
    · exact ⟨grants, [], rfl, by simp⟩
    · refine ⟨before, after ++ [grant], by simp, ?_⟩
      intro late member
      rcases List.mem_append.mp member with member | last
      · exact later late member
      · rwa [List.mem_singleton.mp last]

theorem lookup_recordsOf {grants : List Grant} {fingerprint : String} {principal : Principal} :
    (recordsOf sha256 grants).sshKeys.lookup fingerprint = some principal ↔
      ∃ owner, LastRegistered grants fingerprint owner ∧
        principal = ⟨owner, [SCOPE_READ, SCOPE_WRITE]⟩ := by
  induction grants using List.reverseRecOn with
  | nil =>
    constructor
    · intro found
      cases found
    · rintro ⟨owner, last, -⟩
      exact absurd last not_lastRegistered_nil
  | append_singleton grants grant ih =>
    simp only [recordsOf_snoc, lastRegistered_snoc]
    cases grant with
    | pat minted owner scopes =>
      have same : ((recordsOf sha256 grants).enter sha256 (.pat minted owner scopes)).sshKeys =
          (recordsOf sha256 grants).sshKeys := rfl
      simp [same, ih, Grant.fingerprint]
    | sshKey registered owner =>
      have same : ((recordsOf sha256 grants).enter sha256 (.sshKey registered owner)).sshKeys =
          (recordsOf sha256 grants).sshKeys.insert registered ⟨owner, [SCOPE_READ, SCOPE_WRITE]⟩ := rfl
      rw [same, HashMap.lookup_insert_if]
      by_cases this : fingerprint = registered
      · subst this
        simp [Grant.fingerprint, eq_comm]
      · have other : registered ≠ fingerprint := fun same => this same.symm
        simp [this, other, Grant.fingerprint, ih]

theorem filterMap_unique {α β : Type} {f : α → Option β} {list : List α} {first second : α} {value : β}
    (once : (list.filterMap f).Nodup) (member : first ∈ list) (member' : second ∈ list)
    (value_first : f first = some value) (value_second : f second = some value) : first = second := by
  have apart : list.Pairwise fun first second => ∀ b, f first = some b → ∀ b', f second = some b' → b ≠ b' :=
    List.pairwise_filterMap.mp once
  have symmetric : Std.Symm fun first second => ∀ b, f first = some b → ∀ b', f second = some b' → b ≠ b' :=
    ⟨fun _ _ apart b there b' here => (apart b' here b there).symm⟩
  by_contra different
  exact apart.forall member member' different value value_first value value_second rfl

/-- The record that a structured token names. -/
def AuthRegistry.named (registry : AuthRegistry) (presented : String) : Option (PatRecord × String) := do
  let (id, secret) ← splitOnce (← stripPrefix presented "jpat_") '_'
  return (← registry.pat id, secret)

theorem AuthRegistry.named_eq_some {registry : AuthRegistry} {presented secret : String}
    {record : PatRecord} :
    registry.named presented = some (record, secret) ↔
      ∃ id, presented = (Pat.mk id secret).token ∧ '_' ∉ id.toList ∧ registry.pat id = some record := by
  have shape (id : String) : (Pat.mk id secret).token = "jpat_" ++ (id ++ "_" ++ secret) := by
    simp [Pat.token, String.append_assoc]
  have split (id rest : String) : splitOnce rest '_' = some (id, secret) ↔
      rest = id ++ "_" ++ secret ∧ '_' ∉ id.toList := by
    rw [splitOnce_eq_some, ← String.toList_inj]
    simp
  constructor
  · intro found
    simp only [named, Option.bind_eq_bind, Option.bind_eq_some_iff, Option.pure_def] at found
    obtain ⟨rest, stripped, ⟨id, tail⟩, cut, record', known, same⟩ := found
    cases same
    obtain ⟨rfl, plain⟩ := (split id rest).mp cut
    exact ⟨id, by rw [shape]; exact stripPrefix_eq_some.mp stripped, plain, known⟩
  · rintro ⟨id, rfl, plain, known⟩
    have stripped := stripPrefix_eq_some.mpr (shape id)
    have cut := (split id (id ++ "_" ++ secret)).mpr ⟨rfl, plain⟩
    simp [named, stripped, cut, known]

theorem byteArray_loop (bytes : ByteArray) (i : Nat) (out : List UInt8) :
    ByteArray.toList.loop bytes i out = out.reverse ++ bytes.data.toList.drop i := by
  induction remaining : bytes.size - i generalizing i out with
  | zero =>
    have past : ¬ i < bytes.size := by omega
    have done : bytes.data.toList.length ≤ i := by
      rw [Array.length_toList]
      exact Nat.not_lt.mp past
    rw [ByteArray.toList.loop, if_neg past, List.drop_eq_nil_of_le done, List.append_nil]
  | succ n ih =>
    have inside : i < bytes.size := by omega
    have bound : i < bytes.data.toList.length := by
      rw [Array.length_toList]
      exact inside
    rw [ByteArray.toList.loop, if_pos inside, ih _ _ (by omega), List.drop_eq_getElem_cons bound]
    have byte : bytes.get! i = bytes.data.toList[i] := by
      rw [Array.getElem_toList]
      exact getElem!_pos bytes.data i inside
    rw [byte]
    simp

theorem utf8_injective {first second : String}
    (same : first.toUTF8.toList = second.toUTF8.toList) : first = second := by
  have listed (bytes : ByteArray) : bytes.toList = bytes.data.toList := byteArray_loop bytes 0 []
  rw [listed, listed] at same
  exact String.toByteArray_inj.mp (ByteArray.ext (Array.toList_inj.mp same))

theorem matches_of_iff (digest : Digest sha256) {secret other owner : String} {scopes : List String} :
    (PatRecord.of sha256 secret owner scopes).matches (sha256Hex sha256) other = true ↔ other = secret := by
  rw [PatRecord.matches, PatRecord.of, decide_eq_true_iff]
  constructor
  · intro same
    exact utf8_injective (digest.hex_injective same)
  · rintro rfl
    rfl

theorem AuthRegistry.verifyPat_named {registry : AuthRegistry} {token secret : String}
    {record : PatRecord} (structured : registry.named (trim token) = some (record, secret)) :
    registry.verifyPat (sha256Hex sha256) token =
      if record.matches (sha256Hex sha256) secret then some record.principal else none := by
  obtain ⟨id, same, -⟩ := named_eq_some.mp structured
  have present : trim token ≠ "" := by
    rw [same]
    intro blank
    have := congrArg String.toList blank
    simp [Pat.token] at this
  simp only [verifyPat, if_neg present]
  rw [show (do
      let (id, secret) ← splitOnce (← stripPrefix (trim token) "jpat_") '_'
      return (← registry.pat id, secret)) = some (record, secret) from structured]

theorem AuthRegistry.verifyPat_bare {registry : AuthRegistry} {token : String}
    (bare : registry.named (trim token) = none) (present : trim token ≠ "") :
    registry.verifyPat (sha256Hex sha256) token =
      (registry.pats.find? fun entry => entry.2.matches (sha256Hex sha256) (trim token)).map
        fun entry => entry.2.principal := by
  simp only [verifyPat, if_neg present]
  rw [show (do
      let (id, secret) ← splitOnce (← stripPrefix (trim token) "jpat_") '_'
      return (← registry.pat id, secret)) = none from bare]

theorem token_injective {pat pat' : Pat} (plain : '_' ∉ pat.id.toList) (plain' : '_' ∉ pat'.id.toList)
    (same : pat.token = pat'.token) : pat = pat' := by
  have rest : pat.id ++ "_" ++ pat.secret = pat'.id ++ "_" ++ pat'.secret := by
    simpa [Pat.token, String.append_assoc, ← String.toList_inj] using same
  have cut {minted : Pat} (plain : '_' ∉ minted.id.toList) :
      splitOnce (minted.id ++ "_" ++ minted.secret) '_' = some (minted.id, minted.secret) :=
    splitOnce_eq_some.mpr ⟨by simp, plain⟩
  have both := (cut plain).symm.trans (rest ▸ cut plain')
  simp only [Option.some.injEq, Prod.mk.injEq] at both
  cases pat
  cases pat'
  simpa using both

theorem Hex.plain {s : String} (hex : Hex s) : '_' ∉ s.toList :=
  fun member => hex_not (hex _ member) (by decide) rfl

theorem Hex.not_token {s : String} (hex : Hex s) (pat : Pat) : s ≠ pat.token := by
  rintro rfl
  have first : 'j' ∈ pat.token.toList := by simp [Pat.token]
  exact hex_not (hex _ first) (by decide) rfl

/-- What a token stands for, in the words of `verify_pat`. -/
theorem Copy.verifyPat_iff (digest : Digest sha256) {copy : Copy sha256} (distinct : copy.Distinct)
    {token : String} {principal : Principal} :
    copy.registry.verifyPat (sha256Hex sha256) token = some principal ↔
      copy.Minted token principal.login principal.scopes := by
  have known (entry : String × PatRecord) : entry ∈ copy.registry.pats ↔
      ∃ pat owner scopes, .pat pat owner scopes ∈ copy.grants ∧
        entry = (pat.id, .of sha256 pat.secret owner scopes) := by
    rw [copy.entered]
    exact mem_recordsOf distinct.ids
  by_cases blank : trim token = ""
  · have unverified : copy.registry.verifyPat (sha256Hex sha256) token = none := by
      simp only [AuthRegistry.verifyPat, if_pos blank]
    rw [unverified]
    constructor
    · intro found
      cases found
    · rintro ⟨pat, member, whole | bare⟩
      · have := congrArg String.toList (blank.symm.trans whole)
        simp [Pat.token] at this
      · exact absurd (bare.symm.trans blank) (distinct.hex _ _ _ member).2.2
  rcases structured : copy.registry.named (trim token) with _ | ⟨record, secret⟩
  · rw [AuthRegistry.verifyPat_bare structured blank]
    constructor
    · intro found
      obtain ⟨entry, first, rfl⟩ := Option.map_eq_some_iff.mp found
      obtain ⟨pat, owner, scopes, member, rfl⟩ := (known entry).mp (List.mem_of_find?_eq_some first)
      have good := List.find?_some first
      have bare := (matches_of_iff digest).mp good
      exact ⟨pat, member, .inr bare⟩
    · rintro ⟨pat, member, presented⟩
      have there := (known _).mpr ⟨pat, _, _, member, rfl⟩
      rcases presented with whole | bare
      · -- a whole token names its own record
        have names := AuthRegistry.named_eq_some.mpr
          ⟨pat.id, whole, (distinct.hex _ _ _ member).1.plain, copy.registry.pat_eq_some.mpr there⟩
        rw [structured] at names
        cases names
      · have some : (copy.registry.pats.find? fun entry =>
            entry.2.matches (sha256Hex sha256) (trim token)).isSome := by
          rw [List.find?_isSome]
          exact ⟨_, there, (matches_of_iff digest).mpr bare⟩
        obtain ⟨entry, first⟩ := Option.isSome_iff_exists.mp some
        obtain ⟨pat', owner, scopes, member', rfl⟩ := (known entry).mp (List.mem_of_find?_eq_some first)
        have good := List.find?_some first
        have bare' := (matches_of_iff digest).mp good
        have same := filterMap_unique distinct.secrets member member' rfl
          (congrArg Option.some (bare'.symm.trans bare))
        cases same
        rw [first]
        rfl
  · rw [AuthRegistry.verifyPat_named structured]
    obtain ⟨id, whole, plain, found⟩ := AuthRegistry.named_eq_some.mp structured
    obtain ⟨pat, owner, scopes, member, same⟩ := (known _).mp (copy.registry.pat_eq_some.mp found)
    simp only [Prod.mk.injEq] at same
    obtain ⟨rfl, rfl⟩ := same
    constructor
    · intro verified
      split at verified
      · rename_i good
        have secretSame := (matches_of_iff digest).mp good
        cases verified
        exact ⟨pat, member, .inl (by rw [whole, secretSame])⟩
      · cases verified
    · rintro ⟨pat', member', presented⟩
      rcases presented with whole' | bare
      · have same : Pat.mk pat.id secret = pat' :=
          token_injective plain (distinct.hex _ _ _ member').1.plain (whole.symm.trans whole')
        have ids : pat'.id = pat.id := by rw [← same]
        have secretSame : secret = pat'.secret := by rw [← same]
        have grants := filterMap_unique distinct.ids member member' rfl (congrArg Option.some ids)
        cases grants
        rw [if_pos ((matches_of_iff digest).mpr secretSame)]
        rfl
      · exact absurd (bare.symm.trans whole) ((distinct.hex _ _ _ member').2.1.not_token _)

/-- The copies a handle holds, or a file. -/
inductive Registrars.Holds (store : Registrars sha256) (copy : Copy sha256) : Prop where
  | handle (name : Nat) (flush : Option Flush) (held : store.handles name = some ⟨copy, flush⟩)
  | stored (whole : store.stored = some (.whole copy))
  | temp (whole : store.temp = some (.whole copy))

/-- What each event does. -/
inductive Registrars.Move (store : Registrars sha256) : RegistryEvent → Registrars sha256 → Prop where
  | unopened {name error} (absent : store.handles name = none) (corrupt : store.read = .error error) :
      Move store (.openRegistry name) store
  | opened {name copy} (absent : store.handles name = none) (reads : store.read = .ok copy) :
      Move store (.openRegistry name) (store.set name (some ⟨copy, none⟩))
  | unminted {name copy owner scopes draws secret} (idle : store.handles name = some ⟨copy, none⟩)
      (unseen : store.Unseen draws secret) :
      Move store (.mintPat name owner scopes draws secret)
        { store with drawn := secret :: List.ofFn draws ++ store.drawn }
  | minting {name copy copy' owner scopes draws secret pat}
      (idle : store.handles name = some ⟨copy, none⟩) (unseen : store.Unseen draws secret)
      (mints : copy.mintPat owner scopes draws secret = .ok (pat, copy')) :
      Move store (.mintPat name owner scopes draws secret)
        (({ store with drawn := secret :: List.ofFn draws ++ store.drawn } : Registrars sha256).set name
          (some ⟨copy', some ⟨.pat pat owner scopes, false⟩⟩))
  | unregistered {name copy owner pubkey} (idle : store.handles name = some ⟨copy, none⟩) :
      Move store (.registerSshKey name owner pubkey) store
  | registering {name copy copy' owner pubkey fingerprint}
      (idle : store.handles name = some ⟨copy, none⟩)
      (registers : copy.registerSshKey owner pubkey = .ok (fingerprint, copy')) :
      Move store (.registerSshKey name owner pubkey)
        (store.set name (some ⟨copy', some ⟨.sshKey fingerprint owner, false⟩⟩))
  | wrote {name copy grant outcome}
      (pending : store.handles name = some ⟨copy, some ⟨grant, false⟩⟩) :
      Move store (.write name outcome) (store.writeTemp name copy grant outcome)
  | renamed {name copy grant done}
      (pending : store.handles name = some ⟨copy, some ⟨grant, true⟩⟩) :
      Move store (.rename name done) (store.renameTemp name copy grant done)
  | closed {name} : Move store (.close name) (store.set name none)

theorem Registrars.step_move {store store' : Registrars sha256} {event : RegistryEvent}
    (steps : store.step event = some store') : store.Move event store' := by
  cases event with
  | openRegistry name =>
    rcases absent : store.handles name with _ | handle
    · rcases reads : store.read with error | copy
      · simp only [step, absent, reads, Option.some.injEq] at steps
        exact steps ▸ .unopened absent reads
      · simp only [step, absent, reads, Option.some.injEq] at steps
        exact steps ▸ .opened absent reads
    · simp only [step, absent, reduceCtorEq] at steps
  | mintPat name owner scopes draws secret =>
    rcases idle : store.handles name with _ | ⟨copy, _ | flush⟩
    · simp only [step, idle, reduceCtorEq] at steps
    · by_cases unseen : store.Unseen draws secret
      · simp only [step, idle, if_pos unseen, Option.some.injEq, beginMint] at steps
        rcases mints : copy.mintPat owner scopes draws secret with error | ⟨pat, copy'⟩
        · simp only [mints] at steps
          exact steps ▸ .unminted idle unseen
        · simp only [mints] at steps
          exact steps ▸ .minting idle unseen mints
      · simp only [step, idle, if_neg unseen, reduceCtorEq] at steps
    · simp only [step, idle, reduceCtorEq] at steps
  | registerSshKey name owner pubkey =>
    rcases idle : store.handles name with _ | ⟨copy, _ | flush⟩
    · simp only [step, idle, reduceCtorEq] at steps
    · simp only [step, idle, Option.some.injEq, beginRegister] at steps
      rcases registers : copy.registerSshKey owner pubkey with error | ⟨fingerprint, copy'⟩
      · simp only [registers] at steps
        exact steps ▸ .unregistered idle
      · simp only [registers] at steps
        exact steps ▸ .registering idle registers
    · simp only [step, idle, reduceCtorEq] at steps
  | write name outcome =>
    rcases pending : store.handles name with _ | ⟨copy, _ | ⟨grant, _ | _⟩⟩
    · simp only [step, pending, reduceCtorEq] at steps
    · simp only [step, pending, reduceCtorEq] at steps
    · simp only [step, pending, Option.some.injEq] at steps
      exact steps ▸ .wrote pending
    · simp only [step, pending, reduceCtorEq] at steps
  | rename name done =>
    rcases pending : store.handles name with _ | ⟨copy, _ | ⟨grant, _ | _⟩⟩
    · simp only [step, pending, reduceCtorEq] at steps
    · simp only [step, pending, reduceCtorEq] at steps
    · simp only [step, pending, reduceCtorEq] at steps
    · simp only [step, pending, Option.some.injEq] at steps
      exact steps ▸ .renamed pending
  | close name =>
    simp only [step, Option.some.injEq] at steps
    exact steps ▸ .closed

/-- Where a copy comes from in one step. -/
inductive Registrars.Comes (store store' : Registrars sha256) : Copy sha256 → Prop where
  | held {copy} (held : store.Holds copy) : Comes store store' copy
  | empty : Comes store store' .empty
  | minted {copy copy' owner scopes draws secret pat} (held : store.Holds copy)
      (unseen : store.Unseen draws secret)
      (mints : copy.mintPat owner scopes draws secret = .ok (pat, copy'))
      (drawn : store'.drawn = secret :: List.ofFn draws ++ store.drawn) : Comes store store' copy'
  | registered {copy copy' owner pubkey fingerprint} (held : store.Holds copy)
      (registers : copy.registerSshKey owner pubkey = .ok (fingerprint, copy')) :
      Comes store store' copy'

namespace Registrars

variable {store store' : Registrars sha256} {copy copy' : Copy sha256}

theorem holds_set {name : Nat} {flush : Option Flush}
    (held : (store.set name (some ⟨copy, flush⟩)).Holds copy') : store.Holds copy' ∨ copy' = copy := by
  rcases held with ⟨other, flush', held⟩ | whole | whole
  · by_cases same : other = name
    · subst same
      simp only [set, Function.update_self, Option.some.injEq, Handle.mk.injEq] at held
      exact .inr held.1.symm
    · simp only [set, Function.update_of_ne same] at held
      exact .inl (.handle other flush' held)
  · exact .inl (.stored whole)
  · exact .inl (.temp whole)

theorem holds_answered {name : Nat} (grant : Grant) (ok : Bool)
    (held : (store.answered name copy grant ok).Holds copy') : store.Holds copy' ∨ copy' = copy := by
  have plain : (store.set name (some ⟨copy, none⟩)).Holds copy' := by
    rcases held with ⟨other, flush', held⟩ | whole | whole
    · exact .handle other flush' held
    · exact .stored whole
    · exact .temp whole
  exact holds_set plain

theorem holds_read (reads : store.read = .ok copy) : store.Holds copy ∨ copy = .empty := by
  unfold read at reads
  rcases stored : store.stored with _ | _ | _ | _ <;> simp only [stored] at reads <;> cases reads
  · exact .inr rfl
  · exact .inl (.stored stored)
  · exact .inr rfl

theorem holds_writeTemp {name : Nat} {grant : Grant} {outcome : WriteOutcome}
    (held : (store.writeTemp name copy grant outcome).Holds copy') : store.Holds copy' ∨ copy' = copy := by
  cases outcome with
  | done =>
    rcases held with ⟨other, flush', held⟩ | whole | whole
    · exact holds_set (.handle other flush' held)
    · exact .inl (.stored whole)
    · simp only [writeTemp, Option.some.injEq, Content.whole.injEq] at whole
      exact .inr whole.symm
  | refused => exact holds_answered grant false held
  | cut blank =>
    rcases held with ⟨other, flush', held⟩ | whole | whole
    · exact holds_answered grant false (.handle other flush' held)
    · exact .inl (.stored whole)
    · cases blank <;> simp [writeTemp] at whole

theorem holds_renameTemp {name : Nat} {grant : Grant} {done : Bool}
    (held : (store.renameTemp name copy grant done).Holds copy') : store.Holds copy' ∨ copy' = copy := by
  rcases done with _ | _
  · exact holds_answered grant false held
  rcases temp : store.temp with _ | content
  · simp only [renameTemp, temp] at held
    exact holds_answered grant false held
  · simp only [renameTemp, temp] at held
    rcases held with ⟨other, flush', held⟩ | whole | whole
    · exact holds_answered grant true (.handle other flush' held)
    · exact .inl (.temp (temp.trans whole))
    · cases whole

theorem Move.comes {event : RegistryEvent} (moves : store.Move event store')
    (held : store'.Holds copy') : store.Comes store' copy' := by
  cases moves with
  | unopened => exact .held held
  | opened _ reads =>
    rcases holds_set held with held | rfl
    · exact .held held
    · rcases holds_read reads with held | rfl
      · exact .held held
      · exact .empty
  | unminted idle => 
    rcases held with ⟨other, flush', held⟩ | whole | whole
    · exact .held (.handle other flush' held)
    · exact .held (.stored whole)
    · exact .held (.temp whole)
  | minting idle unseen mints =>
    rcases holds_set held with held | rfl
    · rcases held with ⟨other, flush', held⟩ | whole | whole
      · exact .held (.handle other flush' held)
      · exact .held (.stored whole)
      · exact .held (.temp whole)
    · exact .minted (.handle _ _ idle) unseen mints rfl
  | unregistered => exact .held held
  | registering idle registers =>
    rcases holds_set held with held | rfl
    · exact .held held
    · exact .registered (.handle _ _ idle) registers
  | wrote pending => 
    rcases holds_writeTemp held with held | rfl
    · exact .held held
    · exact .held (.handle _ _ pending)
  | renamed pending => 
    rcases holds_renameTemp held with held | rfl
    · exact .held held
    · exact .held (.handle _ _ pending)
  | @closed name =>
    rcases held with ⟨other, flush', held⟩ | whole | whole
    · by_cases same : other = name
      · subst same
        simp [set] at held
      · simp only [set, Function.update_of_ne same] at held
        exact .held (.handle other flush' held)
    · exact .held (.stored whole)
    · exact .held (.temp whole)

theorem Move.drawn {event : RegistryEvent} (moves : store.Move event store') :
    store.drawn ⊆ store'.drawn := by
  cases moves with
  | unminted | minting => exact List.subset_append_right _ _
  | @wrote _ _ _ outcome => cases outcome <;> exact List.Subset.refl _
  | @renamed _ _ _ done _ =>
    unfold renameTemp
    split <;> exact List.Subset.refl _
  | _ => exact List.Subset.refl _

end Registrars

/-- The states the processes bring the files to. -/
inductive Registrars.Reachable : Registrars sha256 → Prop where
  | start : Reachable .start
  | step {store store' : Registrars sha256} {event : RegistryEvent} (reached : Reachable store)
      (steps : store.step event = some store') : Reachable store'

theorem Copy.registerSshKey_ok {copy copy' : Copy sha256} {owner pubkey fingerprint : String}
    (registers : copy.registerSshKey owner pubkey = .ok (fingerprint, copy')) :
    sshFingerprint sha256 pubkey = .ok fingerprint ∧ copy' = copy.enter (.sshKey fingerprint owner) := by
  unfold registerSshKey at registers
  rcases named : sshFingerprint sha256 pubkey with error | found
  · simp only [named] at registers
    cases registers
  · simp only [named] at registers
    cases registers
    exact ⟨rfl, rfl⟩

theorem AuthRegistry.freshId_ok {registry : AuthRegistry} {draws : Fin 8 → List UInt8} {id : String}
    (fresh : registry.freshId sha256 draws = .ok id) : registry.pat id = none ∧ Hex id := by
  simp only [freshId] at fresh
  split at fresh
  · rename_i found first
    cases fresh
    have free := List.find?_some first
    obtain ⟨bytes, -, rfl⟩ := List.mem_map.mp (List.mem_of_find?_eq_some first)
    refine ⟨Option.isNone_iff_eq_none.mp free, ?_⟩
    intro c member
    rw [String.toList_ofList] at member
    exact sha256Hex_digits bytes c (List.mem_of_mem_take member)
  · cases fresh

theorem Copy.mintPat_ok {copy copy' : Copy sha256} {owner : String} {scopes : List String}
    {draws : Fin 8 → List UInt8} {secret : List UInt8} {pat : Pat}
    (mints : copy.mintPat owner scopes draws secret = .ok (pat, copy')) :
    copy.registry.pat pat.id = none ∧ Hex pat.id ∧ pat.secret = randomToken sha256 secret ∧
      copy' = copy.enter (.pat pat owner scopes) := by
  unfold mintPat at mints
  rcases fresh : copy.registry.freshId sha256 draws with error | id
  · simp only [fresh] at mints
    cases mints
  · simp only [fresh] at mints
    cases mints
    exact ⟨(AuthRegistry.freshId_ok fresh).1, (AuthRegistry.freshId_ok fresh).2, rfl, rfl⟩

/-- Every token of the copy was drawn. -/
structure Copy.Drawn (drawn : List (List UInt8)) (copy : Copy sha256) : Prop where
  distinct : copy.Distinct
  secrets : ∀ pat owner scopes, .pat pat owner scopes ∈ copy.grants →
    ∃ bytes ∈ drawn, pat.secret = randomToken sha256 bytes

namespace Copy.Drawn

variable {drawn : List (List UInt8)} {copy copy' : Copy sha256}

theorem empty : Drawn drawn (Copy.empty : Copy sha256) where
  distinct := ⟨List.nodup_nil, List.nodup_nil, fun _ _ _ member => nomatch member⟩
  secrets := fun _ _ _ member => nomatch member

theorem more {drawn' : List (List UInt8)} (sound : copy.Drawn drawn) (within : drawn ⊆ drawn') :
    copy.Drawn drawn' where
  distinct := sound.distinct
  secrets := by
    intro pat owner scopes member
    obtain ⟨bytes, there, same⟩ := sound.secrets pat owner scopes member
    exact ⟨bytes, within there, same⟩

theorem registers {owner pubkey fingerprint : String} (sound : copy.Drawn drawn)
    (registers : copy.registerSshKey owner pubkey = .ok (fingerprint, copy')) : copy'.Drawn drawn := by
  obtain ⟨-, rfl⟩ := Copy.registerSshKey_ok registers
  have old : ∀ pat owner' scopes, .pat pat owner' scopes ∈ (copy.enter (.sshKey fingerprint owner)).grants →
      .pat pat owner' scopes ∈ copy.grants := by
    intro pat owner' scopes member
    simpa [enter] using member
  refine ⟨⟨?_, ?_, ?_⟩, ?_⟩
  · simpa [enter, List.filterMap_cons, Grant.patId] using sound.distinct.ids
  · simpa [enter, List.filterMap_cons, Grant.secret] using sound.distinct.secrets
  · exact fun pat owner' scopes member => sound.distinct.hex _ _ _ (old _ _ _ member)
  · exact fun pat owner' scopes member => sound.secrets _ _ _ (old _ _ _ member)

theorem mints {owner : String} {scopes : List String} {draws : Fin 8 → List UInt8}
    {secret : List UInt8} {pat : Pat} (digest : Digest sha256) (sound : copy.Drawn drawn)
    (unseen : secret ∉ drawn) (mints : copy.mintPat owner scopes draws secret = .ok (pat, copy')) :
    copy'.Drawn (secret :: List.ofFn draws ++ drawn) := by
  obtain ⟨free, idHex, secretHex, rfl⟩ := Copy.mintPat_ok mints
  have freshId : ∀ grant ∈ copy.grants, grant.patId ≠ some pat.id := by
    intro grant member named
    cases grant with
    | sshKey => cases named
    | pat minted owner' scopes' =>
      have there : (minted.id, .of sha256 minted.secret owner' scopes') ∈ copy.registry.pats := by
        rw [copy.entered]
        exact (mem_recordsOf sound.distinct.ids).mpr ⟨minted, owner', scopes', member, rfl⟩
      have same : minted.id = pat.id := Option.some.inj named
      rw [same, ← AuthRegistry.pat_eq_some, free] at there
      cases there
  have freshSecret : ∀ grant ∈ copy.grants, grant.secret ≠ some pat.secret := by
    intro grant member named
    cases grant with
    | sshKey => cases named
    | pat minted owner' scopes' =>
      obtain ⟨bytes, there, from'⟩ := sound.secrets _ _ _ member
      have same : randomToken sha256 bytes = randomToken sha256 secret :=
        from'.symm.trans ((Option.some.inj named).trans secretHex)
      exact unseen (digest.hex_injective same ▸ there)
  refine ⟨⟨?_, ?_, ?_⟩, ?_⟩
  · rw [enter, List.filterMap_append, List.nodup_append]
    refine ⟨sound.distinct.ids, by simp [Grant.patId], ?_⟩
    intro id member id' last same
    obtain ⟨grant, there, named⟩ := List.mem_filterMap.mp member
    have last' : id' = pat.id := by simpa [Grant.patId] using last
    exact freshId grant there (named.trans (congrArg some (same.trans last')))
  · rw [enter, List.filterMap_append, List.nodup_append]
    refine ⟨sound.distinct.secrets, by simp [Grant.secret], ?_⟩
    intro value member value' last same
    obtain ⟨grant, there, named⟩ := List.mem_filterMap.mp member
    have last' : value' = pat.secret := by simpa [Grant.secret] using last
    exact freshSecret grant there (named.trans (congrArg some (same.trans last')))
  · intro minted owner' scopes' member
    rcases List.mem_append.mp member with member | last
    · exact sound.distinct.hex _ _ _ member
    · have same : Grant.pat minted owner' scopes' = .pat pat owner scopes := by simpa using last
      cases same
      refine ⟨idHex, ?_, ?_⟩
      · rw [secretHex]
        exact sha256Hex_digits secret
      · rw [secretHex]
        exact digest.hex_ne secret
  · intro minted owner' scopes' member
    rcases List.mem_append.mp member with member | last
    · obtain ⟨bytes, there, same⟩ := sound.secrets _ _ _ member
      exact ⟨bytes, List.mem_append_right _ there, same⟩
    · have same : Grant.pat minted owner' scopes' = .pat pat owner scopes := by simpa using last
      cases same
      exact ⟨secret, by simp, secretHex⟩

end Copy.Drawn

theorem Registrars.Reachable.drawn (digest : Digest sha256) {store : Registrars sha256}
    (reached : store.Reachable) {copy : Copy sha256} (held : store.Holds copy) : copy.Drawn store.drawn := by
  induction reached generalizing copy with
  | start => rcases held with ⟨_, _, held⟩ | whole | whole <;> contradiction
  | step _ steps ih =>
    have moves := step_move steps
    cases moves.comes held with
    | held held => exact (ih held).more moves.drawn
    | empty => exact .empty
    | minted held unseen mints drawn =>
      rw [drawn]
      exact (ih held).mints digest (unseen.2 _ List.mem_cons_self) mints
    | registered held registers => exact ((ih held).registers registers).more moves.drawn

/-- The scope that reading or writing needs. -/
def neededScope (write : Bool) : String := if write then SCOPE_WRITE else SCOPE_READ

theorem Principal.may_iff {principal : Principal} {owner : String} {write : Bool} :
    principal.may owner write = true ↔ neededScope write ∈ principal.scopes ∧
      (principal.login = LOCAL_OPERATOR_LOGIN ∨ principal.login = owner) := by
  cases write <;>
    simp [may, canReadOwner, canWriteOwner, hasScope, isLocalOperator, neededScope]

theorem AuthRegistry.decide_some {registry : AuthRegistry} {hash : List UInt8 → String}
    {token owner : String} {isLoopback write : Bool} {principal : Principal} :
    registry.decide hash (some token) isLoopback owner write = .allow principal ↔
      registry.verifyPat hash token = some principal ∧ principal.may owner write = true := by
  rcases verified : registry.verifyPat hash token with _ | found
  · simp [decide, verified]
  · by_cases may : found.may owner write = true
    · simp only [decide, verified, may, if_true, AuthDecision.allow.injEq, Option.some.injEq]
      constructor
      · rintro rfl
        exact ⟨rfl, may⟩
      · exact And.left
    · simp only [decide, verified, may]
      constructor
      · intro allowed
        cases allowed
      · rintro ⟨same, allowed⟩
        cases same
        exact absurd allowed may

theorem authorizeSsh_some {registry : AuthRegistry} {command : SshGitCommand} {fingerprint : String}
    {isLoopback : Bool} {principal : Principal} :
    authorizeSsh registry command (some fingerprint) isLoopback = .ok principal ↔
      registry.sshKeys.lookup (trim fingerprint) = some principal ∧
        principal.may command.owner command.isWrite = true := by
  rcases found : registry.sshKeys.lookup (trim fingerprint) with _ | holder
  · simp only [authorizeSsh, found, false_and, iff_false, reduceCtorEq]
    intro allowed
    cases allowed
  · by_cases may : holder.may command.owner command.isWrite = true
    · have allowed : authorizeSsh registry command (some fingerprint) isLoopback = .ok holder := by
        simp [authorizeSsh, found, may, pure, Except.pure, bind, Except.bind]
      rw [allowed]
      constructor
      · rintro ⟨⟩
        exact ⟨rfl, may⟩
      · rintro ⟨same, -⟩
        cases same
        rfl
    · constructor
      · intro allowed
        simp [authorizeSsh, found, may, pure, Except.pure, bind, Except.bind] at allowed
      · rintro ⟨same, allowed⟩
        cases same
        exact absurd allowed may

/-- A token and a key open what they were made for, and nothing else, unless the call that made
    them named the local operator. -/
theorem credential_reaches_owner_iff (digest : Digest sha256) {store : Registrars sha256}
    (reached : store.Reachable) {copy : Copy sha256} (held : store.Holds copy) :
    (∀ token,
      (∀ isLoopback owner write principal,
        copy.registry.decide (sha256Hex sha256) (some token) isLoopback owner write = .allow principal →
          ∃ scopes, copy.Minted token owner scopes ∧ neededScope write ∈ scopes) ↔
        ∀ scopes, copy.Minted token LOCAL_OPERATOR_LOGIN scopes →
          SCOPE_READ ∉ scopes ∧ SCOPE_WRITE ∉ scopes) ∧
    ∀ fingerprint,
      (∀ command isLoopback principal,
        authorizeSsh copy.registry command (some fingerprint) isLoopback = .ok principal →
          LastRegistered copy.grants (trim fingerprint) command.owner) ↔
        ¬ LastRegistered copy.grants (trim fingerprint) LOCAL_OPERATOR_LOGIN := by
  have verifies {token : String} {principal : Principal} :
      copy.registry.verifyPat (sha256Hex sha256) token = some principal ↔
        copy.Minted token principal.login principal.scopes :=
    Copy.verifyPat_iff digest (reached.drawn digest held).distinct
  have keys {fingerprint : String} {principal : Principal} :
      copy.registry.sshKeys.lookup fingerprint = some principal ↔ ∃ owner,
        LastRegistered copy.grants fingerprint owner ∧
          principal = ⟨owner, [SCOPE_READ, SCOPE_WRITE]⟩ := by
    rw [copy.entered]
    exact lookup_recordsOf
  refine ⟨fun token => ⟨?_, ?_⟩, fun fingerprint => ⟨?_, ?_⟩⟩
  · intro bound scopes minted
    have operator := verifies.mpr (show copy.Minted token (Principal.mk LOCAL_OPERATOR_LOGIN scopes).login _ from minted)
    have lacks : ∀ write, neededScope write ∉ scopes := by
      intro write holds
      have may : (Principal.mk LOCAL_OPERATOR_LOGIN scopes).may "" write = true :=
        Principal.may_iff.mpr ⟨holds, .inl rfl⟩
      obtain ⟨scopes', minted', -⟩ :=
        bound false "" write _ (AuthRegistry.decide_some.mpr ⟨operator, may⟩)
      have nobody := verifies.mpr (show copy.Minted token (Principal.mk "" scopes').login _ from minted')
      rw [operator] at nobody
      have same : LOCAL_OPERATOR_LOGIN = "" := congrArg Principal.login (Option.some.inj nobody)
      exact absurd same (by decide)
    exact ⟨lacks false, lacks true⟩
  · intro scopeless isLoopback owner write principal allowed
    obtain ⟨verified, may⟩ := AuthRegistry.decide_some.mp allowed
    have minted := verifies.mp verified
    obtain ⟨holds, operator | same⟩ := Principal.may_iff.mp may
    · rw [operator] at minted
      have lacks := scopeless _ minted
      cases write
      · exact absurd holds lacks.1
      · exact absurd holds lacks.2
    · exact ⟨principal.scopes, same ▸ minted, holds⟩
  · intro bound last
    have operator := keys.mpr ⟨_, last, rfl⟩
    have may : (Principal.mk LOCAL_OPERATOR_LOGIN [SCOPE_READ, SCOPE_WRITE]).may "" false = true := by
      decide
    have nobody := bound ⟨.uploadPack, "", ""⟩ false _ (authorizeSsh_some.mpr ⟨operator, may⟩)
    have both := keys.mpr ⟨_, nobody, rfl⟩
    rw [operator] at both
    have same := congrArg Principal.login (Option.some.inj both)
    exact absurd same (by decide)
  · intro other command isLoopback principal allowed
    obtain ⟨found, may⟩ := authorizeSsh_some.mp allowed
    obtain ⟨owner, last, rfl⟩ := keys.mp found
    obtain ⟨-, operator | same⟩ := Principal.may_iff.mp may
    · exact absurd (operator ▸ last) other
    · exact same ▸ last

end Records

namespace RegistryDemo

def sha256 (bytes : List UInt8) : List UInt8 := 1 :: bytes

theorem digest : Digest sha256 := ⟨fun _ _ same => List.tail_eq_of_cons_eq same, fun _ => List.cons_ne_nil _ _⟩

def draws : Fin 8 → List UInt8 := fun n => [UInt8.ofNat n.val]

def pat : Pat := ⟨String.ofList ((randomToken sha256 [0]).toList.take 16), randomToken sha256 [9]⟩

/-- One handle, and one token minted for `owner`. -/
def minted (owner : String) : Registrars sha256 :=
  (Registrars.start.set 0 (some ⟨.empty, none⟩)).beginMint 0 .empty owner [SCOPE_READ] draws [9]

def copy (owner : String) : Copy sha256 := Copy.empty.enter (.pat pat owner [SCOPE_READ])

theorem minted_reached (owner : String) : (minted owner).Reachable := by
  have opened : (Registrars.start.set 0 (some ⟨Copy.empty, none⟩) : Registrars sha256).Reachable :=
    @Registrars.Reachable.step _ _ _ (.openRegistry 0) .start rfl
  have unseen : (Registrars.start.set 0 (some ⟨Copy.empty, none⟩) : Registrars sha256).Unseen draws [9] := by
    decide
  have steps : (Registrars.start.set 0 (some ⟨Copy.empty, none⟩)).step
      (.mintPat 0 owner [SCOPE_READ] draws [9]) = some (minted owner) := by
    have idle : (Registrars.start.set 0 (some ⟨Copy.empty, none⟩) : Registrars sha256).handles 0 =
      some ⟨Copy.empty, none⟩ := rfl
    simp only [Registrars.step, idle, if_pos unseen]
    rfl
  exact .step opened steps

theorem minted_held (owner : String) : (minted owner).Holds (copy owner) :=
  .handle 0 (some ⟨.pat pat owner [SCOPE_READ], false⟩) rfl

end RegistryDemo

/-- A token for `acme` reads the repositories of `acme` only. -/
theorem credential_reaches_owner_iff_demo :
    (RegistryDemo.minted "acme").Reachable ∧ ∀ isLoopback owner write principal,
      (RegistryDemo.copy "acme").registry.decide (sha256Hex RegistryDemo.sha256) (some RegistryDemo.pat.token) isLoopback owner
          write = .allow principal →
        ∃ scopes, (RegistryDemo.copy "acme").Minted RegistryDemo.pat.token owner scopes ∧ neededScope write ∈ scopes := by
  have own := (credential_reaches_owner_iff RegistryDemo.digest (RegistryDemo.minted_reached "acme")
    (RegistryDemo.minted_held "acme")).1 RegistryDemo.pat.token
  refine ⟨RegistryDemo.minted_reached "acme", own.mpr ?_⟩
  rintro scopes ⟨pat, member, -⟩
  simp [RegistryDemo.copy, Copy.enter, Copy.empty, LOCAL_OPERATOR_LOGIN] at member

/-- A token minted for an owner of that name reads the repositories of everyone. -/
theorem operator_token_reaches_others :
    ∃ principal, (RegistryDemo.minted "local-operator").Reachable ∧
      (RegistryDemo.minted "local-operator").Holds (RegistryDemo.copy "local-operator") ∧
      (RegistryDemo.copy "local-operator").registry.decide (sha256Hex RegistryDemo.sha256) (some RegistryDemo.pat.token) false
        "acme" false = .allow principal ∧
      ¬ ∃ scopes, (RegistryDemo.copy "local-operator").Minted RegistryDemo.pat.token "acme" scopes := by
  have distinct := ((RegistryDemo.minted_reached "local-operator").drawn RegistryDemo.digest
    (RegistryDemo.minted_held "local-operator")).distinct
  have own : (RegistryDemo.copy "local-operator").Minted RegistryDemo.pat.token
      (Principal.mk "local-operator" [SCOPE_READ]).login [SCOPE_READ] :=
    ⟨RegistryDemo.pat, by simp [RegistryDemo.copy, Copy.enter, Copy.empty], .inl (by decide +kernel)⟩
  refine ⟨_, RegistryDemo.minted_reached _, RegistryDemo.minted_held _, AuthRegistry.decide_some.mpr
    ⟨(Copy.verifyPat_iff RegistryDemo.digest distinct).mpr own, by decide⟩, ?_⟩
  rintro ⟨scopes, pat, member, -⟩
  simp [RegistryDemo.copy, Copy.enter, Copy.empty] at member

end Jeryu.Gitd
