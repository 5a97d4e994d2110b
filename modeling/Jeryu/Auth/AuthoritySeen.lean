import Jeryu.Auth.AuthorityAtWrite
import Jeryu.Library.SeenPool

/-!
No change without authority: whatever comes between the check and the write of a call, the authority
was there as the call looked for it.
-/

namespace Jeryu.Auth

open Jeryu.Core KeyedMap LockProgram

section Runs

variable {start pool pool' : DeedPool} {deed : Deed} {i : Nat} {reply : Option deed.Reply}

end Runs

section Demo

end Demo

end Jeryu.Auth
