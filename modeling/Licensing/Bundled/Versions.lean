import Licensing.Document.Datum

/-! # The bundled version families

Which licenses are versions of one another, from the oldest to the newest, and which identifiers
stand for "this version or any later one".
-/

namespace Licensing.Bundled

open Licensing.Document

/-- A family of versions, the oldest first. -/
def family (versions : List String) : Datum :=
  .table [("versions", .list (versions.map .text))]

def families : List Datum :=
  [family ["AFL-1.1", "AFL-1.2", "AFL-2.0", "AFL-2.1", "AFL-3.0"],
   family ["AGPL-1.0-only", "AGPL-3.0-only"],
   family ["APSL-1.0", "APSL-1.1", "APSL-1.2", "APSL-2.0"],
   family ["Apache-1.0", "Apache-1.1", "Apache-2.0"],
   family ["Artistic-1.0", "Artistic-2.0"],
   family ["BitTorrent-1.0", "BitTorrent-1.1"],
   family ["CC-BY-1.0", "CC-BY-2.0", "CC-BY-2.5", "CC-BY-3.0", "CC-BY-4.0"],
   family ["CC-BY-NC-1.0", "CC-BY-NC-2.0", "CC-BY-NC-2.5", "CC-BY-NC-3.0", "CC-BY-NC-4.0"],
   family ["CC-BY-NC-ND-1.0", "CC-BY-NC-ND-2.0", "CC-BY-NC-ND-2.5", "CC-BY-NC-ND-3.0", "CC-BY-NC-ND-4.0"],
   family ["CC-BY-NC-SA-1.0", "CC-BY-NC-SA-2.0", "CC-BY-NC-SA-2.5", "CC-BY-NC-SA-3.0", "CC-BY-NC-SA-4.0"],
   family ["CC-BY-ND-1.0", "CC-BY-ND-2.0", "CC-BY-ND-2.5", "CC-BY-ND-3.0", "CC-BY-ND-4.0"],
   family ["CC-BY-SA-1.0", "CC-BY-SA-2.0", "CC-BY-SA-2.5", "CC-BY-SA-3.0", "CC-BY-SA-4.0"],
   family ["CDDL-1.0", "CDDL-1.1"],
   family ["CECILL-1.0", "CECILL-1.1", "CECILL-2.0", "CECILL-2.1"],
   family ["CERN-OHL-1.1", "CERN-OHL-1.2"],
   family ["ECL-1.0", "ECL-2.0"],
   family ["EFL-1.0", "EFL-2.0"],
   family ["EPL-1.0", "EPL-2.0"],
   family ["EUPL-1.0", "EUPL-1.1", "EUPL-1.2"],
   family ["GFDL-1.1-only", "GFDL-1.2-only", "GFDL-1.3-only"],
   family ["GPL-1.0-only", "GPL-2.0-only", "GPL-3.0-only"],
   family ["LAL-1.2", "LAL-1.3"],
   family ["LGPL-2.0-only", "LGPL-2.1-only", "LGPL-3.0-only"],
   family ["LPL-1.0", "LPL-1.02"],
   family ["LPPL-1.0", "LPPL-1.1", "LPPL-1.2"],
   family ["MPL-1.0", "MPL-1.1", "MPL-2.0"],
   family ["NPL-1.0", "NPL-1.1"],
   family ["OFL-1.0", "OFL-1.1"],
   family ["OGL-UK-1.0", "OGL-UK-2.0", "OGL-UK-3.0"],
   family ["OLDAP-1.1", "OLDAP-1.2", "OLDAP-1.3", "OLDAP-1.4", "OLDAP-2.0", "OLDAP-2.0.1", "OLDAP-2.1",
     "OLDAP-2.2", "OLDAP-2.2.1", "OLDAP-2.2.2", "OLDAP-2.3", "OLDAP-2.4", "OLDAP-2.5", "OLDAP-2.6", "OLDAP-2.7", "OLDAP-2.8"],
   family ["OSL-1.0", "OSL-1.1", "OSL-2.0", "OSL-2.1", "OSL-3.0"],
   family ["PHP-3.0", "PHP-3.01"],
   family ["RPL-1.1", "RPL-1.5"],
   family ["SGI-B-1.0", "SGI-B-1.1", "SGI-B-2.0"],
   family ["SISSL", "SISSL-1.2"],
   family ["Spencer-86", "Spencer-94", "Spencer-99"],
   family ["TU-Berlin-1.0", "TU-Berlin-2.0"],
   family ["Unicode-DFS-2015", "Unicode-DFS-2016"],
   family ["W3C-19980720", "W3C-20150513"],
   family ["YPL-1.0", "YPL-1.1"],
   family ["ZPL-1.1", "ZPL-2.0", "ZPL-2.1"],
   family ["Zimbra-1.3", "Zimbra-1.4"],
   family ["bzip2-1.0.5", "bzip2-1.0.6"],
   family ["copyleft-next-0.3.0", "copyleft-next-0.3.1"]]

def orLaterIds : List Datum :=
  [.text "AGPL-1.0-or-later", .text "AGPL-3.0-or-later", .text "GFDL-1.1-or-later",
      .text "GFDL-1.2-or-later", .text "GFDL-1.3-or-later", .text "GPL-1.0-or-later",
      .text "GPL-2.0-or-later", .text "GPL-3.0-or-later", .text "LGPL-2.0-or-later",
      .text "LGPL-2.1-or-later", .text "LGPL-3.0-or-later"]

def versions : Table :=
  [("or_later", .list orLaterIds), ("family", .list families)]

end Licensing.Bundled
