import Licensing.Proofs.Engine.Checking
import Licensing.Proofs.Files.Writing
import Licensing.Proofs.Settings.Extending

/-! # Engines and rewritten files

Building an engine reads one file at most, the one with further licenses.  That file is never the one with the
settings, whose keys no list of licenses has, so an engine can be built again after the settings were written.
-/

namespace Licensing

open Document (Datum Table)

namespace Registry

end Registry

namespace Engine

open Reporting

variable {files files' : Files} {settings : Settings} {engine : Engine}

end Engine

end Licensing
