import Jeryu.Library.KeyedMap
import Jeryu.Library.Text

/-!
The Git server: its errors, the requests it reads and the repositories it serves.
-/

namespace Jeryu.Gitd

open KeyedMap Text

inductive GitdError where
  | io
  | invalidInput (message : String)
  | invalidPath (message : String)
  | gitCommandFailed (program : String)
  | repoNotFound (path : List String)
  | protectedRefDenied (message : String)
  | mergeConflict (message : String)
  | nonFastForwardRequired
  | protocol (message : String)
  | http (message : String)
  | lfs (message : String)
  | unauthorized
  | forbidden (message : String)
  | repositoryArchived (repository : String)
  | busy (message : String)
  deriving DecidableEq

/-- A call ends with an error, or its thread panics. -/
inductive Failure where
  | error (error : GitdError)
  | panicked
  deriving DecidableEq

/-- Headers are kept under lower-case names, one value for each. -/
structure HttpRequest where
  method : String
  path : String
  query : HashMap String String
  headers : HashMap String String
  body : List UInt8
  isLoopback : Bool
  authPrechecked : Bool

def fromUtf8 (bytes : List UInt8) : Option String := String.fromUTF8? ⟨bytes.toArray⟩

end Jeryu.Gitd
