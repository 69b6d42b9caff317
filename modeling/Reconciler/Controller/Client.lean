import Reconciler.Object
import Reconciler.Program

/-!
# Object clients

The two questions that the finalizer bookkeeping asks about stored objects: read the latest copy,
and replace it by compare and swap. A replace is refused with `Error.conflict` if the version it
carries is not the stored one, and with `Error.notFound` if the object is gone.
-/

namespace Reconciler

/-- Questions about stored objects with body `β`. -/
inductive ObjectRequest (β : Type) where
  /-- The latest copy of an object. -/
  | get (namespaceName : Option String) (name : String)
  /-- Store a copy in place of the version it was made from. -/
  | replace (o : Object β)

/-- An object client: both questions are answered by an object or an error. -/
def objectClient (β : Type) : Interface where
  Request := ObjectRequest β
  Reply _ := Except Error (Object β)

end Reconciler
