import AnnotatedZig.Command.Store

/-!
# What a store keeps

What is written to a file is read back from it, by whatever way the path goes, and everything else
stays. The way goes through directories only, and none of them can be the file itself.
-/

set_option autoImplicit false

namespace AnnotatedZig.Command

namespace Store

variable (s : Store) (place : List String) (bytes : ByteArray)

end Store

end AnnotatedZig.Command
