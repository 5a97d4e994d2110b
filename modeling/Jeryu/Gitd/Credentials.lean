import Jeryu.Gitd.Model

namespace Jeryu.Gitd

open KeyedMap Text

def SCOPE_READ : String := "repo:read"

def SCOPE_WRITE : String := "repo:write"

/-- The login of the peer that needs no credential. -/
def LOCAL_OPERATOR_LOGIN : String := "local-operator"

structure Principal where
  login : String
  scopes : List String
  deriving DecidableEq

namespace Principal

def localOperator : Principal := ⟨LOCAL_OPERATOR_LOGIN, [SCOPE_READ, SCOPE_WRITE]⟩

def isLocalOperator (principal : Principal) : Bool := principal.login = LOCAL_OPERATOR_LOGIN

def hasScope (principal : Principal) (scope : String) : Bool := principal.scopes.contains scope

def canWriteOwner (principal : Principal) (owner : String) : Bool :=
  principal.hasScope SCOPE_WRITE && (principal.isLocalOperator || principal.login = owner)

def canReadOwner (principal : Principal) (owner : String) : Bool :=
  principal.hasScope SCOPE_READ && (principal.isLocalOperator || principal.login = owner)

def may (principal : Principal) (owner : String) (write : Bool) : Bool :=
  if write then principal.canWriteOwner owner else principal.canReadOwner owner

end Principal

inductive AuthDecision where
  | allow (principal : Principal)
  | deny401
  | deny403
  deriving DecidableEq

structure PatRecord where
  secretHash : String
  principal : Principal

/-- The records of the registry, in the order of their ids. -/
structure AuthRegistry where
  pats : List (String × PatRecord)
  sorted : pats.Pairwise fun first second => first.1 < second.1
  /-- By fingerprint. -/
  sshKeys : HashMap String Principal

theorem AuthRegistry.sorted_nil : ([] : List (String × PatRecord)).Pairwise
    fun first second => first.1 < second.1 := .nil

def AuthRegistry.pat (registry : AuthRegistry) (id : String) : Option PatRecord :=
  (registry.pats.find? fun entry => entry.1 = id).map Prod.snd

section Secrets

variable (sha256Hex : List UInt8 → String)

def PatRecord.matches (record : PatRecord) (secret : String) : Bool :=
  sha256Hex secret.toUTF8.toList = record.secretHash

/-- The principal of the whole token, `jpat_<id>_<secret>`, or of a bare secret. -/
def AuthRegistry.verifyPat (registry : AuthRegistry) (presented : String) : Option Principal :=
  let presented := trim presented
  if presented = "" then none
  else
    let structured := do
      let (id, secret) ← splitOnce (← stripPrefix presented "jpat_") '_'
      return (← registry.pat id, secret)
    match structured with
    | some (record, secret) =>
      if record.matches sha256Hex secret then some record.principal else none
    | none =>
      (registry.pats.find? fun entry => entry.2.matches sha256Hex presented).map fun entry =>
        entry.2.principal

/-- Without a credential the loopback peer is the local operator. -/
def AuthRegistry.decide (registry : AuthRegistry) (credential : Option String) (isLoopback : Bool)
    (owner : String) (write : Bool) : AuthDecision :=
  let principal :=
    match credential with
    | none => if isLoopback then some Principal.localOperator else none
    | some token => registry.verifyPat sha256Hex token
  match principal with
  | none => .deny401
  | some principal => if principal.may owner write then .allow principal else .deny403

end Secrets

def base64Table : List UInt8 :=
  "ABCDEFGHIJKLMNOPQRSTUVWXYZabcdefghijklmnopqrstuvwxyz0123456789+/".toUTF8.toList

/-- The bytes `base64_decode` passes over: `=`, the line ends and the space. -/
def isBase64Filler (byte : UInt8) : Bool := byte = 61 || byte = 10 || byte = 13 || byte = 32

/-- Six bits a byte, from the bits not yet given out. -/
def base64Step (bits : UInt32) (nbits : Nat) : List UInt8 → Option (List UInt8)
  | [] => some []
  | byte :: rest =>
    if isBase64Filler byte then base64Step bits nbits rest
    else match base64Table.findIdx? (· = byte) with
      | none => none
      | some value =>
        let bits := (bits <<< 6) ||| UInt32.ofNat value
        if nbits + 6 ≥ 8 then
          (base64Step bits (nbits - 2) rest).map fun out =>
            (bits >>> UInt32.ofNat (nbits - 2)).toUInt8 :: out
        else base64Step bits (nbits + 6) rest

def base64Decode (input : String) : Option (List UInt8) := base64Step 0 0 input.toUTF8.toList

/-- The part of `text` after the scheme, whatever the case of the scheme. `none` where the text
    is cut inside a character. -/
def stripCiPrefix (input scheme : String) : Option (Option String) :=
  if len input < len scheme then some none
  else match splitAt input.toList (len scheme) with
    | none => none
    | some (head, tail) =>
      if eqIgnoreAsciiCase (String.ofList head) scheme then some (some (String.ofList tail))
      else some none

def basicPassword (decoded : String) : String :=
  match splitOnce decoded ':' with
  | some (_, password) => password
  | none => decoded

def bearerToken (rest : String) : Option String := if trim rest = "" then none else some (trim rest)

def basicToken (rest : String) : Option String := do
  let password := basicPassword (← fromUtf8 (← base64Decode (trim rest)))
  if password = "" then none else some password

/-- The token of a `Bearer` or `Basic` header; outside, `none` for a panic. -/
def extractBearerOrBasic (authorization : String) : Option (Option String) :=
  match stripCiPrefix (trim authorization) "bearer " with
  | none => none
  | some (some rest) => some (bearerToken rest)
  | some none =>
    match stripCiPrefix (trim authorization) "basic " with
    | none => none
    | some none => some none
    | some (some rest) => some (basicToken rest)

/-- `registry` is what opening the registry answers. -/
def authorize (sha256Hex : List UInt8 → String) (registry : Except GitdError AuthRegistry)
    (request : HttpRequest) (owner : String) (write : Bool) : Except Failure Unit :=
  if request.authPrechecked then .ok ()
  else match registry with
    | .error error => .error (.error error)
    | .ok registry =>
      let credential := match request.headers.lookup "authorization" with
        | none => some none
        | some header => extractBearerOrBasic header
      match credential with
      | none => .error .panicked
      | some credential =>
        match registry.decide sha256Hex credential request.isLoopback owner write with
        | .allow _ => .ok ()
        | .deny401 => .error (.error .unauthorized)
        | .deny403 =>
          let access := if write then "write" else "read"
          .error (.error (.forbidden s!"principal not authorized to {access} {owner}"))

end Jeryu.Gitd
