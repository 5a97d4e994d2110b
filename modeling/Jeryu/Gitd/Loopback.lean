import Jeryu.Gitd.Credentials

/-!
What a presented credential lets a request do, and where the loopback peer stays the local
operator in spite of one.
-/

namespace Jeryu.Gitd

open KeyedMap Text

/-- The text starts with the scheme, whatever its case, and goes on with the rest. -/
def HasScheme (text scheme rest : String) : Prop :=
  ∃ head : String, text.toList = head.toList ++ rest.toList ∧ eqIgnoreAsciiCase head scheme = true

/-- The byte stands inside a character. -/
def CutsCharacter (text : String) (n : Nat) : Prop :=
  n ≤ len text ∧ ∀ head rest, text.toList = head ++ rest → String.utf8Len head ≠ n

/-- The token a header carries: all of a `Bearer`, the password of a `Basic`. -/
inductive Carries (header token : String) : Prop where
  | bearer (rest : String) (scheme : HasScheme (trim header) "bearer " rest)
      (named : trim rest = token) (present : token ≠ "")
  | basic (rest : String) (bytes : List UInt8) (decoded : String)
      (scheme : HasScheme (trim header) "basic " rest) (base64 : base64Decode (trim rest) = some bytes)
      (utf8 : fromUtf8 bytes = some decoded) (named : basicPassword decoded = token) (present : token ≠ "")

/-- Looking for a scheme cuts the header inside a character. -/
def Breaks (header : String) : Prop :=
  CutsCharacter (trim header) 7 ∨ CutsCharacter (trim header) 6

section Schemes

variable {text scheme rest rest' : String}

theorem HasScheme.utf8Len {head : String} (same : eqIgnoreAsciiCase head scheme = true) :
    String.utf8Len head.toList = len scheme := by
  have lower := eqIgnoreAsciiCase_iff.mp same
  unfold toAsciiLowercase at lower
  have chars : head.toList.map toAsciiLowercaseChar = scheme.toList.map toAsciiLowercaseChar :=
    String.ofList_inj.mp lower
  rw [len_eq, ← utf8Len_map_toAsciiLowercaseChar, chars, utf8Len_map_toAsciiLowercaseChar]

theorem HasScheme.splitAt (has : HasScheme text scheme rest) : ∃ head,
    Text.splitAt text.toList (len scheme) = some (head, rest.toList) ∧
      eqIgnoreAsciiCase (String.ofList head) scheme = true := by
  obtain ⟨head, same, scheme⟩ := has
  exact ⟨head.toList, splitAt_eq_some.mpr ⟨same, HasScheme.utf8Len scheme⟩, by rwa [String.ofList_toList]⟩

theorem HasScheme.unique (has : HasScheme text scheme rest) (has' : HasScheme text scheme rest') :
    rest = rest' := by
  obtain ⟨head, cut, -⟩ := has.splitAt
  obtain ⟨head', cut', -⟩ := has'.splitAt
  have same := cut.symm.trans cut'
  simp only [Option.some.injEq, Prod.mk.injEq] at same
  exact String.toList_inj.mp same.2

theorem HasScheme.fits (has : HasScheme text scheme rest) : len scheme ≤ len text := by
  obtain ⟨head, same, scheme⟩ := has
  rw [len_eq text, same, String.utf8Len_append, HasScheme.utf8Len scheme]
  omega

theorem stripCiPrefix_eq_some : stripCiPrefix text scheme = some (some rest) ↔ HasScheme text scheme rest := by
  unfold stripCiPrefix
  constructor
  · intro strips
    by_cases short : len text < len scheme
    · rw [if_pos short] at strips
      cases strips
    · rw [if_neg short] at strips
      split at strips
      · cases strips
      · next head tail cut =>
        split at strips
        · next same =>
          simp only [Option.some.injEq] at strips
          subst strips
          refine ⟨String.ofList head, ?_, same⟩
          rw [String.toList_ofList, String.toList_ofList]
          exact (splitAt_eq_some.mp cut).1
        · cases strips
  · intro has
    obtain ⟨head, cut, same⟩ := has.splitAt
    rw [if_neg (Nat.not_lt.mpr has.fits), cut]
    dsimp only
    rw [if_pos same, String.ofList_toList]

theorem stripCiPrefix_eq_none : stripCiPrefix text scheme = none ↔ CutsCharacter text (len scheme) := by
  unfold stripCiPrefix CutsCharacter
  by_cases short : len text < len scheme
  · rw [if_pos short]
    constructor
    · exact fun absurd => nomatch absurd
    · rintro ⟨long, -⟩
      omega
  · rw [if_neg short]
    cases cut : Text.splitAt text.toList (len scheme) with
    | none =>
      refine iff_of_true rfl ⟨by omega, fun head rest same size => ?_⟩
      have found := splitAt_eq_some.mpr ⟨same, size⟩
      rw [cut] at found
      cases found
    | some parts =>
      obtain ⟨head, tail⟩ := parts
      obtain ⟨same, size⟩ := splitAt_eq_some.mp cut
      constructor
      · intro absurd
        dsimp only at absurd
        split at absurd <;> cases absurd
      · rintro ⟨-, inside⟩
        exact absurd size (inside _ _ same)

/-- The first byte of a scheme's text that is not one of `bearer`'s. -/
theorem HasScheme.whole_six (has : HasScheme text "bearer " rest) : ¬CutsCharacter text 6 := by
  rintro ⟨-, inside⟩
  obtain ⟨head, same, scheme⟩ := has
  have lower := eqIgnoreAsciiCase_iff.mp scheme
  unfold toAsciiLowercase at lower
  have chars : head.toList.map toAsciiLowercaseChar = "bearer".toList ++ [' '] := by
    rw [String.ofList_inj.mp lower]
    decide
  obtain ⟨six, last, split, first, -⟩ := List.map_eq_append_iff.mp chars
  refine inside six (last ++ rest.toList) (by rw [same, split, List.append_assoc]) ?_
  rw [← utf8Len_map_toAsciiLowercaseChar, first]
  decide

theorem HasScheme.other (has : HasScheme text "basic " rest) : ¬HasScheme text "bearer " rest' := by
  rintro ⟨head', same', scheme'⟩
  obtain ⟨head, same, scheme⟩ := has
  have lower := String.ofList_inj.mp (eqIgnoreAsciiCase_iff.mp scheme)
  have lower' := String.ofList_inj.mp (eqIgnoreAsciiCase_iff.mp scheme')
  have second : (text.toList.map toAsciiLowercaseChar)[1]? = some 'a' := by
    rw [same, List.map_append, lower]
    rfl
  have second' : (text.toList.map toAsciiLowercaseChar)[1]? = some 'e' := by
    rw [same', List.map_append, lower']
    rfl
  rw [second] at second'
  cases second'

end Schemes

section Extraction

variable {header token : String}

theorem extract_eq_none : extractBearerOrBasic header = none ↔ Breaks header := by
  have seven : stripCiPrefix (trim header) "bearer " = none ↔ CutsCharacter (trim header) 7 :=
    stripCiPrefix_eq_none
  have six : stripCiPrefix (trim header) "basic " = none ↔ CutsCharacter (trim header) 6 :=
    stripCiPrefix_eq_none
  unfold extractBearerOrBasic Breaks
  rw [← seven, ← six]
  cases bearer : stripCiPrefix (trim header) "bearer " with
  | none => exact iff_of_true rfl (.inl rfl)
  | some stripped =>
    cases stripped with
    | some rest =>
      have whole := (stripCiPrefix_eq_some.mp bearer).whole_six
      rw [← six] at whole
      exact iff_of_false (fun absurd => nomatch absurd) (by simp [whole])
    | none =>
      cases basic : stripCiPrefix (trim header) "basic " with
      | none => exact iff_of_true rfl (.inr rfl)
      | some stripped' => cases stripped' <;> simp

theorem bearerToken_eq_some {rest : String} :
    bearerToken rest = some token ↔ trim rest = token ∧ token ≠ "" := by
  unfold bearerToken
  split
  · next blank =>
    refine iff_of_false (fun absurd => nomatch absurd) ?_
    rintro ⟨rfl, present⟩
    exact present blank
  · next present =>
    rw [Option.some.injEq]
    exact ⟨fun named => ⟨named, named ▸ present⟩, fun named => named.1⟩

theorem basicToken_eq_some {rest : String} :
    basicToken rest = some token ↔ ∃ bytes decoded, base64Decode (trim rest) = some bytes ∧
      fromUtf8 bytes = some decoded ∧ basicPassword decoded = token ∧ token ≠ "" := by
  unfold basicToken
  simp only [Option.bind_eq_bind, Option.bind_eq_some_iff]
  constructor
  · rintro ⟨bytes, base64, decoded, utf8, named⟩
    split at named
    · cases named
    · next present =>
      cases named
      exact ⟨bytes, decoded, base64, utf8, rfl, present⟩
  · rintro ⟨bytes, decoded, base64, utf8, rfl, present⟩
    exact ⟨bytes, base64, decoded, utf8, if_neg present⟩

/-- A header that can be read gives the token it carries. -/
theorem extract_eq_some (whole : ¬Breaks header) :
    extractBearerOrBasic header = some (some token) ↔ Carries header token := by
  have reads := mt extract_eq_none.mp whole
  unfold extractBearerOrBasic at reads ⊢
  cases bearer : stripCiPrefix (trim header) "bearer " with
  | none => rw [bearer] at reads; exact absurd rfl reads
  | some stripped =>
    rw [bearer] at reads
    cases stripped with
    | some rest =>
      have scheme := stripCiPrefix_eq_some.mp bearer
      simp only [Option.some.injEq, bearerToken_eq_some]
      constructor
      · rintro ⟨named, present⟩
        exact .bearer rest scheme named present
      · rintro (⟨rest', scheme', named, present⟩ | ⟨rest', bytes, decoded, scheme', -⟩)
        · cases scheme.unique scheme'
          exact ⟨named, present⟩
        · exact absurd scheme scheme'.other
    | none =>
      have noBearer {rest : String} : ¬HasScheme (trim header) "bearer " rest := fun scheme => by
        rw [stripCiPrefix_eq_some.mpr scheme] at bearer
        cases bearer
      cases basic : stripCiPrefix (trim header) "basic " with
      | none => simp [basic] at reads
      | some stripped' =>
        cases stripped' with
        | none =>
          refine iff_of_false (fun absurd => nomatch absurd) ?_
          rintro (⟨rest, scheme, -⟩ | ⟨rest, bytes, decoded, scheme, -⟩)
          · exact noBearer scheme
          · rw [stripCiPrefix_eq_some.mpr scheme] at basic
            cases basic
        | some rest =>
          have scheme := stripCiPrefix_eq_some.mp basic
          simp only [Option.some.injEq, basicToken_eq_some]
          constructor
          · rintro ⟨bytes, decoded, base64, utf8, named, present⟩
            exact .basic rest bytes decoded scheme base64 utf8 named present
          · rintro (⟨rest', scheme', -⟩ | ⟨rest', bytes, decoded, scheme', base64, utf8, named, present⟩)
            · exact absurd scheme' noBearer
            · cases scheme.unique scheme'
              exact ⟨bytes, decoded, base64, utf8, named, present⟩

end Extraction

/-- The header carries a token of a principal that may do this to the owner's repositories. -/
def Vouched (sha256Hex : List UInt8 → String) (registry : AuthRegistry) (header owner : String)
    (write : Bool) : Prop :=
  ∃ token principal, Carries header token ∧ registry.verifyPat sha256Hex token = some principal ∧
    principal.may owner write = true

section Requests

variable {sha256Hex : List UInt8 → String} {opened : Except GitdError AuthRegistry}
variable {registry : AuthRegistry} {request : HttpRequest} {header owner : String} {write : Bool}

theorem localOperator_may : Principal.localOperator.may owner write = true := by
  cases write <;> rfl

theorem decide_allows {credential : Option String} {isLoopback : Bool} {principal : Principal} :
    registry.decide sha256Hex credential isLoopback owner write = .allow principal ↔
      principal.may owner write = true ∧
      match credential with
      | none => isLoopback = true ∧ principal = .localOperator
      | some token => registry.verifyPat sha256Hex token = some principal := by
  unfold AuthRegistry.decide
  cases credential with
  | none =>
    cases isLoopback with
    | false => simp
    | true =>
      simp only [if_true, true_and, localOperator_may, AuthDecision.allow.injEq]
      constructor
      · rintro rfl
        exact ⟨localOperator_may, rfl⟩
      · exact fun operator => operator.2.symm
  | some token =>
    dsimp only
    cases verified : registry.verifyPat sha256Hex token with
    | none => simp
    | some known =>
      simp only [Option.some.injEq]
      split
      · next may =>
        simp only [AuthDecision.allow.injEq]
        constructor
        · rintro rfl
          exact ⟨may, rfl⟩
        · exact fun same => same.2
      · next may =>
        refine iff_of_false (fun absurd => nomatch absurd) ?_
        rintro ⟨allowed, rfl⟩
        exact may allowed

/-- What an allowed request with a header was allowed by. -/
theorem authorize_eq_ok (unchecked : request.authPrechecked = false)
    (carries : request.headers.lookup "authorization" = some header) :
    authorize sha256Hex opened request owner write = .ok () ↔
      ∃ registry credential, opened = .ok registry ∧
        extractBearerOrBasic header = some credential ∧ ∃ principal,
          registry.decide sha256Hex credential request.isLoopback owner write = .allow principal := by
  unfold authorize
  rw [unchecked, carries]
  cases opened with
  | error error => simp
  | ok registry =>
    simp only [Bool.false_eq_true, if_false, Except.ok.injEq]
    cases extracted : extractBearerOrBasic header with
    | none => simp
    | some credential =>
      dsimp only
      cases decided : registry.decide sha256Hex credential request.isLoopback owner write with
      | allow principal => simp [decided]
      | deny401 => simp [decided]
      | deny403 => simp [decided]

/-- A request with an `Authorization` header is allowed for the sake of a token in it alone,
    unless the peer is the loopback one and the header, read to its end, carries no token. -/
theorem authorize_vouched_iff (unchecked : request.authPrechecked = false)
    (carries : request.headers.lookup "authorization" = some header) :
    (authorize sha256Hex opened request owner write = .ok () →
      ∃ registry, opened = .ok registry ∧ Vouched sha256Hex registry header owner write) ↔
    (request.isLoopback = false ∨ (∃ error, opened = .error error) ∨ Breaks header ∨
      ∃ token, Carries header token) := by
  rw [authorize_eq_ok unchecked carries]
  constructor
  · intro vouches
    by_contra escape
    simp only [not_or, not_exists, Bool.not_eq_false] at escape
    obtain ⟨loopback, opens, whole, bare⟩ := escape
    cases opened with
    | error error => exact opens error rfl
    | ok registry =>
      cases extracted : extractBearerOrBasic header with
      | none => exact whole (extract_eq_none.mp extracted)
      | some credential =>
        cases credential with
        | some token => exact bare token ((extract_eq_some whole).mp extracted)
        | none =>
          obtain ⟨-, -, token, -, has, -⟩ := vouches ⟨registry, none, rfl, extracted,
            .localOperator, decide_allows.mpr ⟨localOperator_may, loopback, rfl⟩⟩
          exact bare token has
  · rintro holds ⟨registry, credential, rfl, extracted, principal, decided⟩
    obtain ⟨may, by_⟩ := decide_allows.mp decided
    have whole : ¬Breaks header := fun breaks => by
      rw [extract_eq_none.mpr breaks] at extracted
      cases extracted
    cases credential with
    | some token => exact ⟨registry, rfl, token, principal, (extract_eq_some whole).mp extracted, by_, may⟩
    | none =>
      rcases holds with remote | ⟨error, absurd⟩ | breaks | ⟨token, has⟩
      · rw [remote] at by_
        cases by_.1
      · cases absurd
      · exact absurd breaks whole
      · rw [(extract_eq_some whole).mpr has] at extracted
        cases extracted

end Requests

section Demo

/-- A push to `acme/demo` from the loopback peer. -/
def presenting (header : String) : HttpRequest where
  method := "POST"
  path := "/acme/demo.git/git-receive-pack"
  query := ∅
  headers := (∅ : HashMap String String).insert "authorization" header
  body := []
  isLoopback := true
  authPrechecked := false

def noPats : AuthRegistry := ⟨[], AuthRegistry.sorted_nil, ∅⟩

theorem unreadable_basic : extractBearerOrBasic "Basic %%%" = some none := by decide +kernel

/-- A header that cannot be read stands for no header at all. -/
theorem unreadable_header_allowed :
    ∃ (request : HttpRequest) (header : String), request.headers.lookup "authorization" = some header ∧
      request.authPrechecked = false ∧ ∀ sha256Hex : List UInt8 → String,
        authorize sha256Hex (.ok noPats) request "acme" true = .ok () ∧
        ¬∃ registry, (.ok noPats : Except GitdError AuthRegistry) = .ok registry ∧
          Vouched sha256Hex registry header "acme" true := by
  refine ⟨presenting "Basic %%%", "Basic %%%", by decide, rfl, fun sha256Hex => ⟨?_, ?_⟩⟩
  · have carries : (presenting "Basic %%%").headers.lookup "authorization" = some "Basic %%%" := by
      decide
    exact (authorize_eq_ok rfl carries).mpr ⟨noPats, none, rfl, unreadable_basic, .localOperator,
      decide_allows.mpr ⟨rfl, rfl, rfl⟩⟩
  · rintro ⟨registry, -, token, principal, has, -⟩
    have whole : ¬Breaks "Basic %%%" := fun breaks => by
      have broken := extract_eq_none.mpr breaks
      rw [unreadable_basic] at broken
      cases broken
    have extracted := (extract_eq_some whole).mpr has
    rw [unreadable_basic] at extracted
    cases extracted

/-- One token, of `acme`'s, that may write. -/
def onePat : AuthRegistry where
  pats := [("1", ⟨"1ec1c26b50d5d3c58d9583181af8076655fe00756bf7285940ba3670f99fcba0", ⟨"acme", [SCOPE_WRITE]⟩⟩)]
  sorted := List.pairwise_singleton _ _
  sshKeys := ∅

/-- SHA-256 on the secret of that token. -/
def secretHash (bytes : List UInt8) : String :=
  if bytes = "s3cret".toUTF8.toList then
    "1ec1c26b50d5d3c58d9583181af8076655fe00756bf7285940ba3670f99fcba0"
  else ""

theorem bearer_allowed : authorize secretHash (.ok onePat) (presenting "Bearer jpat_1_s3cret") "acme"
    true = .ok () := by decide +kernel

theorem bearer_vouched : ∃ registry request header, registry = onePat ∧
    authorize secretHash (.ok registry) request "acme" true = .ok () ∧
    ∃ opened, (.ok registry : Except GitdError AuthRegistry) = .ok opened ∧
      Vouched secretHash opened header "acme" true := by
  refine ⟨onePat, presenting "Bearer jpat_1_s3cret", "Bearer jpat_1_s3cret", rfl, bearer_allowed,
    (authorize_vouched_iff rfl (by decide)).mpr (.inr (.inr (.inr ⟨"jpat_1_s3cret", ?_⟩))) bearer_allowed⟩
  exact .bearer "jpat_1_s3cret" ⟨"Bearer ", by decide, by decide⟩ (by decide) (by decide)

end Demo

end Jeryu.Gitd
