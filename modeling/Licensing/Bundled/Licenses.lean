import Licensing.Bundled.Entry

/-! # The bundled licenses

The widely used licenses of the SPDX list.
-/

namespace Licensing.Bundled

open Licensing.Document

/-- One entry per license, in the order in which licenses are tried. -/
def licenses : Table :=
  [entry "0BSD" "BSD Zero Clause License"
     ["http://landley.net/toybox/license.html",
      "https://opensource.org/licenses/0BSD"],
   entry "AFL-1.1" "Academic Free License v1.1"
     ["http://opensource.linux-mirror.org/licenses/afl-1.1.txt",
      "http://wayback.archive.org/web/20021004124254/http://www.opensource.org/licenses/academic.php"],
   entry "AFL-1.2" "Academic Free License v1.2"
     ["http://opensource.linux-mirror.org/licenses/afl-1.2.txt",
      "http://wayback.archive.org/web/20021204204652/http://www.opensource.org/licenses/academic.php"],
   entry "AFL-2.0" "Academic Free License v2.0"
     ["http://wayback.archive.org/web/20060924134533/http://www.opensource.org/licenses/afl-2.0.txt"],
   entry "AFL-2.1" "Academic Free License v2.1"
     ["http://opensource.linux-mirror.org/licenses/afl-2.1.txt"],
   entry "AFL-3.0" "Academic Free License v3.0"
     ["http://www.rosenlaw.com/AFL3.0.htm",
      "https://opensource.org/licenses/afl-3.0"],
   entry "AGPL-1.0-only" "Affero General Public License v1.0 only"
     ["http://www.affero.org/oagpl.html"],
   entry "AGPL-1.0-or-later" "Affero General Public License v1.0 or later"
     ["http://www.affero.org/oagpl.html"],
   entry "AGPL-3.0-only" "GNU Affero General Public License v3.0 only"
     ["https://www.gnu.org/licenses/agpl.txt",
      "https://opensource.org/licenses/AGPL-3.0"],
   entry "AGPL-3.0-or-later" "GNU Affero General Public License v3.0 or later"
     ["https://www.gnu.org/licenses/agpl.txt",
      "https://opensource.org/licenses/AGPL-3.0"],
   entry "Apache-1.0" "Apache License 1.0"
     ["http://www.apache.org/licenses/LICENSE-1.0"],
   entry "Apache-1.1" "Apache License 1.1"
     ["http://apache.org/licenses/LICENSE-1.1",
      "https://opensource.org/licenses/Apache-1.1"],
   entry "Apache-2.0" "Apache License 2.0"
     ["http://www.apache.org/licenses/LICENSE-2.0",
      "https://opensource.org/licenses/Apache-2.0"],
   entry "APSL-1.0" "Apple Public Source License 1.0"
     ["https://fedoraproject.org/wiki/Licensing/Apple_Public_Source_License_1.0"],
   entry "APSL-1.1" "Apple Public Source License 1.1"
     ["http://www.opensource.apple.com/source/IOSerialFamily/IOSerialFamily-7/APPLE_LICENSE"],
   entry "APSL-1.2" "Apple Public Source License 1.2"
     ["http://www.samurajdata.se/opensource/mirror/licenses/apsl.php"],
   entry "APSL-2.0" "Apple Public Source License 2.0"
     ["http://www.opensource.apple.com/license/apsl/"],
   entry "Artistic-1.0" "Artistic License 1.0"
     ["https://opensource.org/licenses/Artistic-1.0"],
   entry "Artistic-2.0" "Artistic License 2.0"
     ["http://www.perlfoundation.org/artistic_license_2_0",
      "https://opensource.org/licenses/artistic-license-2.0"],
   entry "BitTorrent-1.0" "BitTorrent Open Source License v1.0"
     ["http://sources.gentoo.org/cgi-bin/viewvc.cgi/gentoo-x86/licenses/BitTorrent?r1=1.1&r2=1.1.1.1&diff_format=s"],
   entry "BitTorrent-1.1" "BitTorrent Open Source License v1.1"
     ["http://directory.fsf.org/wiki/License:BitTorrentOSL1.1"],
   entry "BSD-1-Clause" "BSD 1-Clause License"
     ["https://svnweb.freebsd.org/base/head/include/ifaddrs.h?revision=326823"],
   entry "BSD-2-Clause" "BSD 2-Clause \"Simplified\" License"
     ["https://opensource.org/licenses/BSD-2-Clause"],
   entry "BSD-2-Clause-Patent" "BSD-2-Clause Plus Patent License"
     ["https://opensource.org/licenses/BSDplusPatent"],
   entry "BSD-3-Clause" "BSD 3-Clause \"New\" or \"Revised\" License"
     ["https://opensource.org/licenses/BSD-3-Clause"],
   entry "BSD-3-Clause-Clear" "BSD 3-Clause Clear License"
     ["http://labs.metacarta.com/license-explanation.html#license"],
   entry "BSD-4-Clause" "BSD 4-Clause \"Original\" or \"Old\" License"
     ["http://directory.fsf.org/wiki/License:BSD_4Clause"],
   entry "BSL-1.0" "Boost Software License 1.0"
     ["http://www.boost.org/LICENSE_1_0.txt",
      "https://opensource.org/licenses/BSL-1.0"],
   entry "bzip2-1.0.5" "bzip2 and libbzip2 License v1.0.5"
     ["https://sourceware.org/bzip2/1.0.5/bzip2-manual-1.0.5.html"],
   entry "bzip2-1.0.6" "bzip2 and libbzip2 License v1.0.6"
     ["https://sourceware.org/git/?p=bzip2.git;a=blob;f=LICENSE;hb=bzip2-1.0.6"],
   entry "CC-BY-1.0" "Creative Commons Attribution 1.0 Generic"
     ["https://creativecommons.org/licenses/by/1.0/legalcode"],
   entry "CC-BY-2.0" "Creative Commons Attribution 2.0 Generic"
     ["https://creativecommons.org/licenses/by/2.0/legalcode"],
   entry "CC-BY-2.5" "Creative Commons Attribution 2.5 Generic"
     ["https://creativecommons.org/licenses/by/2.5/legalcode"],
   entry "CC-BY-3.0" "Creative Commons Attribution 3.0 Unported"
     ["https://creativecommons.org/licenses/by/3.0/legalcode"],
   entry "CC-BY-4.0" "Creative Commons Attribution 4.0 International"
     ["https://creativecommons.org/licenses/by/4.0/legalcode"],
   entry "CC-BY-NC-1.0" "Creative Commons Attribution Non Commercial 1.0 Generic"
     ["https://creativecommons.org/licenses/by-nc/1.0/legalcode"],
   entry "CC-BY-NC-2.0" "Creative Commons Attribution Non Commercial 2.0 Generic"
     ["https://creativecommons.org/licenses/by-nc/2.0/legalcode"],
   entry "CC-BY-NC-2.5" "Creative Commons Attribution Non Commercial 2.5 Generic"
     ["https://creativecommons.org/licenses/by-nc/2.5/legalcode"],
   entry "CC-BY-NC-3.0" "Creative Commons Attribution Non Commercial 3.0 Unported"
     ["https://creativecommons.org/licenses/by-nc/3.0/legalcode"],
   entry "CC-BY-NC-4.0" "Creative Commons Attribution Non Commercial 4.0 International"
     ["https://creativecommons.org/licenses/by-nc/4.0/legalcode"],
   entry "CC-BY-NC-ND-1.0" "Creative Commons Attribution Non Commercial No Derivatives 1.0 Generic"
     ["https://creativecommons.org/licenses/by-nd-nc/1.0/legalcode"],
   entry "CC-BY-NC-ND-2.0" "Creative Commons Attribution Non Commercial No Derivatives 2.0 Generic"
     ["https://creativecommons.org/licenses/by-nc-nd/2.0/legalcode"],
   entry "CC-BY-NC-ND-2.5" "Creative Commons Attribution Non Commercial No Derivatives 2.5 Generic"
     ["https://creativecommons.org/licenses/by-nc-nd/2.5/legalcode"],
   entry "CC-BY-NC-ND-3.0" "Creative Commons Attribution Non Commercial No Derivatives 3.0 Unported"
     ["https://creativecommons.org/licenses/by-nc-nd/3.0/legalcode"],
   entry "CC-BY-NC-ND-4.0" "Creative Commons Attribution Non Commercial No Derivatives 4.0 International"
     ["https://creativecommons.org/licenses/by-nc-nd/4.0/legalcode"],
   entry "CC-BY-NC-SA-1.0" "Creative Commons Attribution Non Commercial Share Alike 1.0 Generic"
     ["https://creativecommons.org/licenses/by-nc-sa/1.0/legalcode"],
   entry "CC-BY-NC-SA-2.0" "Creative Commons Attribution Non Commercial Share Alike 2.0 Generic"
     ["https://creativecommons.org/licenses/by-nc-sa/2.0/legalcode"],
   entry "CC-BY-NC-SA-2.5" "Creative Commons Attribution Non Commercial Share Alike 2.5 Generic"
     ["https://creativecommons.org/licenses/by-nc-sa/2.5/legalcode"],
   entry "CC-BY-NC-SA-3.0" "Creative Commons Attribution Non Commercial Share Alike 3.0 Unported"
     ["https://creativecommons.org/licenses/by-nc-sa/3.0/legalcode"],
   entry "CC-BY-NC-SA-4.0" "Creative Commons Attribution Non Commercial Share Alike 4.0 International"
     ["https://creativecommons.org/licenses/by-nc-sa/4.0/legalcode"],
   entry "CC-BY-ND-1.0" "Creative Commons Attribution No Derivatives 1.0 Generic"
     ["https://creativecommons.org/licenses/by-nd/1.0/legalcode"],
   entry "CC-BY-ND-2.0" "Creative Commons Attribution No Derivatives 2.0 Generic"
     ["https://creativecommons.org/licenses/by-nd/2.0/legalcode"],
   entry "CC-BY-ND-2.5" "Creative Commons Attribution No Derivatives 2.5 Generic"
     ["https://creativecommons.org/licenses/by-nd/2.5/legalcode"],
   entry "CC-BY-ND-3.0" "Creative Commons Attribution No Derivatives 3.0 Unported"
     ["https://creativecommons.org/licenses/by-nd/3.0/legalcode"],
   entry "CC-BY-ND-4.0" "Creative Commons Attribution No Derivatives 4.0 International"
     ["https://creativecommons.org/licenses/by-nd/4.0/legalcode"],
   entry "CC-BY-SA-1.0" "Creative Commons Attribution Share Alike 1.0 Generic"
     ["https://creativecommons.org/licenses/by-sa/1.0/legalcode"],
   entry "CC-BY-SA-2.0" "Creative Commons Attribution Share Alike 2.0 Generic"
     ["https://creativecommons.org/licenses/by-sa/2.0/legalcode"],
   entry "CC-BY-SA-2.5" "Creative Commons Attribution Share Alike 2.5 Generic"
     ["https://creativecommons.org/licenses/by-sa/2.5/legalcode"],
   entry "CC-BY-SA-3.0" "Creative Commons Attribution Share Alike 3.0 Unported"
     ["https://creativecommons.org/licenses/by-sa/3.0/legalcode"],
   entry "CC-BY-SA-4.0" "Creative Commons Attribution Share Alike 4.0 International"
     ["https://creativecommons.org/licenses/by-sa/4.0/legalcode"],
   entry "CC0-1.0" "Creative Commons Zero v1.0 Universal"
     ["https://creativecommons.org/publicdomain/zero/1.0/legalcode"],
   entry "CDDL-1.0" "Common Development and Distribution License 1.0"
     ["https://opensource.org/licenses/cddl1"],
   entry "CDDL-1.1" "Common Development and Distribution License 1.1"
     ["http://glassfish.java.net/public/CDDL+GPL_1_1.html",
      "https://javaee.github.io/glassfish/LICENSE"],
   entry "CECILL-1.0" "CeCILL Free Software License Agreement v1.0"
     ["http://www.cecill.info/licences/Licence_CeCILL_V1-fr.html"],
   entry "CECILL-1.1" "CeCILL Free Software License Agreement v1.1"
     ["http://www.cecill.info/licences/Licence_CeCILL_V1.1-US.html"],
   entry "CECILL-2.0" "CeCILL Free Software License Agreement v2.0"
     ["http://www.cecill.info/licences/Licence_CeCILL_V2-en.html"],
   entry "CECILL-2.1" "CeCILL Free Software License Agreement v2.1"
     ["http://www.cecill.info/licences/Licence_CeCILL_V2.1-en.html"],
   entry "CERN-OHL-1.1" "CERN Open Hardware Licence v1.1"
     ["https://www.ohwr.org/project/licenses/wikis/cern-ohl-v1.1"],
   entry "CERN-OHL-1.2" "CERN Open Hardware Licence v1.2"
     ["https://www.ohwr.org/project/licenses/wikis/cern-ohl-v1.2"],
   entry "copyleft-next-0.3.0" "copyleft-next 0.3.0"
     ["https://github.com/copyleft-next/copyleft-next/blob/master/Releases/copyleft-next-0.3.0"],
   entry "copyleft-next-0.3.1" "copyleft-next 0.3.1"
     ["https://github.com/copyleft-next/copyleft-next/blob/master/Releases/copyleft-next-0.3.1"],
   entry "CPL-1.0" "Common Public License 1.0"
     ["https://opensource.org/licenses/CPL-1.0"],
   entry "ECL-1.0" "Educational Community License v1.0"
     ["https://opensource.org/licenses/ECL-1.0"],
   entry "ECL-2.0" "Educational Community License v2.0"
     ["https://opensource.org/licenses/ECL-2.0"],
   entry "EDL-1.0" "Eclipse Distribution License - v 1.0"
     ["http://www.eclipse.org/org/documents/edl-v10.php"],
   entry "EFL-1.0" "Eiffel Forum License v1.0"
     ["http://www.eiffel-nice.org/license/forum.txt",
      "https://opensource.org/licenses/EFL-1.0"],
   entry "EFL-2.0" "Eiffel Forum License v2.0"
     ["http://www.eiffel-nice.org/license/eiffel-forum-license-2.html",
      "https://opensource.org/licenses/EFL-2.0"],
   entry "EPL-1.0" "Eclipse Public License 1.0"
     ["http://www.eclipse.org/legal/epl-v10.html",
      "https://opensource.org/licenses/EPL-1.0"],
   entry "EPL-2.0" "Eclipse Public License 2.0"
     ["https://www.eclipse.org/legal/epl-2.0",
      "https://www.opensource.org/licenses/EPL-2.0"],
   entry "EUPL-1.0" "European Union Public License 1.0"
     ["http://ec.europa.eu/idabc/en/document/7330.html"],
   entry "EUPL-1.1" "European Union Public License 1.1"
     ["https://joinup.ec.europa.eu/software/page/eupl/licence-eupl",
      "https://opensource.org/licenses/EUPL-1.1"],
   entry "EUPL-1.2" "European Union Public License 1.2"
     ["https://joinup.ec.europa.eu/page/eupl-text-11-12",
      "https://opensource.org/licenses/EUPL-1.2"],
   entry "GFDL-1.1-only" "GNU Free Documentation License v1.1 only"
     ["https://www.gnu.org/licenses/old-licenses/fdl-1.1.txt"],
   entry "GFDL-1.1-or-later" "GNU Free Documentation License v1.1 or later"
     ["https://www.gnu.org/licenses/old-licenses/fdl-1.1.txt"],
   entry "GFDL-1.2-only" "GNU Free Documentation License v1.2 only"
     ["https://www.gnu.org/licenses/old-licenses/fdl-1.2.txt"],
   entry "GFDL-1.2-or-later" "GNU Free Documentation License v1.2 or later"
     ["https://www.gnu.org/licenses/old-licenses/fdl-1.2.txt"],
   entry "GFDL-1.3-only" "GNU Free Documentation License v1.3 only"
     ["https://www.gnu.org/licenses/fdl-1.3.txt"],
   entry "GFDL-1.3-or-later" "GNU Free Documentation License v1.3 or later"
     ["https://www.gnu.org/licenses/fdl-1.3.txt"],
   entry "GPL-1.0-only" "GNU General Public License v1.0 only"
     ["https://www.gnu.org/licenses/old-licenses/gpl-1.0-standalone.html"],
   entry "GPL-1.0-or-later" "GNU General Public License v1.0 or later"
     ["https://www.gnu.org/licenses/old-licenses/gpl-1.0-standalone.html"],
   entry "GPL-2.0-only" "GNU General Public License v2.0 only"
     ["https://www.gnu.org/licenses/old-licenses/gpl-2.0-standalone.html",
      "https://opensource.org/licenses/GPL-2.0"],
   entry "GPL-2.0-or-later" "GNU General Public License v2.0 or later"
     ["https://www.gnu.org/licenses/old-licenses/gpl-2.0-standalone.html",
      "https://opensource.org/licenses/GPL-2.0"],
   entry "GPL-3.0-only" "GNU General Public License v3.0 only"
     ["https://www.gnu.org/licenses/gpl-3.0-standalone.html",
      "https://opensource.org/licenses/GPL-3.0"],
   entry "GPL-3.0-or-later" "GNU General Public License v3.0 or later"
     ["https://www.gnu.org/licenses/gpl-3.0-standalone.html",
      "https://opensource.org/licenses/GPL-3.0"],
   entry "ISC" "ISC License"
     ["https://www.isc.org/downloads/software-support-policy/isc-license/",
      "https://opensource.org/licenses/ISC"],
   entry "JSON" "JSON License"
     ["http://www.json.org/license.html"],
   entry "LAL-1.2" "Licence Art Libre 1.2"
     ["http://artlibre.org/licence/lal/licence-art-libre-12/"],
   entry "LAL-1.3" "Licence Art Libre 1.3"
     ["https://artlibre.org/"],
   entry "LGPL-2.0-only" "GNU Library General Public License v2 only"
     ["https://www.gnu.org/licenses/old-licenses/lgpl-2.0-standalone.html"],
   entry "LGPL-2.0-or-later" "GNU Library General Public License v2 or later"
     ["https://www.gnu.org/licenses/old-licenses/lgpl-2.0-standalone.html"],
   entry "LGPL-2.1-only" "GNU Lesser General Public License v2.1 only"
     ["https://www.gnu.org/licenses/old-licenses/lgpl-2.1-standalone.html",
      "https://opensource.org/licenses/LGPL-2.1"],
   entry "LGPL-2.1-or-later" "GNU Lesser General Public License v2.1 or later"
     ["https://www.gnu.org/licenses/old-licenses/lgpl-2.1-standalone.html",
      "https://opensource.org/licenses/LGPL-2.1"],
   entry "LGPL-3.0-only" "GNU Lesser General Public License v3.0 only"
     ["https://www.gnu.org/licenses/lgpl-3.0-standalone.html",
      "https://opensource.org/licenses/LGPL-3.0"],
   entry "LGPL-3.0-or-later" "GNU Lesser General Public License v3.0 or later"
     ["https://www.gnu.org/licenses/lgpl-3.0-standalone.html",
      "https://opensource.org/licenses/LGPL-3.0"],
   entry "LPL-1.0" "Lucent Public License Version 1.0"
     ["https://opensource.org/licenses/LPL-1.0"],
   entry "LPL-1.02" "Lucent Public License v1.02"
     ["http://plan9.bell-labs.com/plan9/license.html",
      "https://opensource.org/licenses/LPL-1.02"],
   entry "LPPL-1.0" "LaTeX Project Public License v1.0"
     ["http://www.latex-project.org/lppl/lppl-1-0.txt"],
   entry "LPPL-1.1" "LaTeX Project Public License v1.1"
     ["http://www.latex-project.org/lppl/lppl-1-1.txt"],
   entry "LPPL-1.2" "LaTeX Project Public License v1.2"
     ["http://www.latex-project.org/lppl/lppl-1-2.txt"],
   entry "MIT" "MIT License"
     ["https://opensource.org/licenses/MIT"],
   entry "MIT-0" "MIT No Attribution"
     ["https://github.com/aws/mit-0",
      "https://romanrm.net/mit-zero"],
   entry "MPL-1.0" "Mozilla Public License 1.0"
     ["http://www.mozilla.org/MPL/MPL-1.0.html",
      "https://opensource.org/licenses/MPL-1.0"],
   entry "MPL-1.1" "Mozilla Public License 1.1"
     ["http://www.mozilla.org/MPL/MPL-1.1.html",
      "https://opensource.org/licenses/MPL-1.1"],
   entry "MPL-2.0" "Mozilla Public License 2.0"
     ["https://www.mozilla.org/MPL/2.0/",
      "https://opensource.org/licenses/MPL-2.0"],
   entry "NPL-1.0" "Netscape Public License v1.0"
     ["http://www.mozilla.org/MPL/NPL/1.0/"],
   entry "NPL-1.1" "Netscape Public License v1.1"
     ["http://www.mozilla.org/MPL/NPL/1.1/"],
   entry "OFL-1.0" "SIL Open Font License 1.0"
     ["http://scripts.sil.org/cms/scripts/page.php?item_id=OFL10_web"],
   entry "OFL-1.1" "SIL Open Font License 1.1"
     ["http://scripts.sil.org/cms/scripts/page.php?item_id=OFL_web",
      "https://opensource.org/licenses/OFL-1.1"],
   entry "OGL-UK-1.0" "Open Government Licence v1.0"
     ["http://www.nationalarchives.gov.uk/doc/open-government-licence/version/1/"],
   entry "OGL-UK-2.0" "Open Government Licence v2.0"
     ["http://www.nationalarchives.gov.uk/doc/open-government-licence/version/2/"],
   entry "OGL-UK-3.0" "Open Government Licence v3.0"
     ["http://www.nationalarchives.gov.uk/doc/open-government-licence/version/3/"],
   entry "OLDAP-1.1" "Open LDAP Public License v1.1"
     ["http://www.openldap.org/devel/gitweb.cgi?p=openldap.git;a=blob;f=LICENSE;hb=806557a5ad59804ef3a44d5abfbe91d706b0791f"],
   entry "OLDAP-1.2" "Open LDAP Public License v1.2"
     ["http://www.openldap.org/devel/gitweb.cgi?p=openldap.git;a=blob;f=LICENSE;hb=42b0383c50c299977b5893ee695cf4e486fb0dc7"],
   entry "OLDAP-1.3" "Open LDAP Public License v1.3"
     ["http://www.openldap.org/devel/gitweb.cgi?p=openldap.git;a=blob;f=LICENSE;hb=e5f8117f0ce088d0bd7a8e18ddf37eaa40eb09b1"],
   entry "OLDAP-1.4" "Open LDAP Public License v1.4"
     ["http://www.openldap.org/devel/gitweb.cgi?p=openldap.git;a=blob;f=LICENSE;hb=c9f95c2f3f2ffb5e0ae55fe7388af75547660941"],
   entry "OLDAP-2.0" "Open LDAP Public License v2.0 (or possibly 2.0A and 2.0B)"
     ["http://www.openldap.org/devel/gitweb.cgi?p=openldap.git;a=blob;f=LICENSE;hb=cbf50f4e1185a21abd4c0a54d3f4341fe28f36ea"],
   entry "OLDAP-2.0.1" "Open LDAP Public License v2.0.1"
     ["http://www.openldap.org/devel/gitweb.cgi?p=openldap.git;a=blob;f=LICENSE;hb=b6d68acd14e51ca3aab4428bf26522aa74873f0e"],
   entry "OLDAP-2.1" "Open LDAP Public License v2.1"
     ["http://www.openldap.org/devel/gitweb.cgi?p=openldap.git;a=blob;f=LICENSE;hb=b0d176738e96a0d3b9f85cb51e140a86f21be715"],
   entry "OLDAP-2.2" "Open LDAP Public License v2.2"
     ["http://www.openldap.org/devel/gitweb.cgi?p=openldap.git;a=blob;f=LICENSE;hb=470b0c18ec67621c85881b2733057fecf4a1acc3"],
   entry "OLDAP-2.2.1" "Open LDAP Public License v2.2.1"
     ["http://www.openldap.org/devel/gitweb.cgi?p=openldap.git;a=blob;f=LICENSE;hb=4bc786f34b50aa301be6f5600f58a980070f481e"],
   entry "OLDAP-2.2.2" "Open LDAP Public License 2.2.2"
     ["http://www.openldap.org/devel/gitweb.cgi?p=openldap.git;a=blob;f=LICENSE;hb=df2cc1e21eb7c160695f5b7cffd6296c151ba188"],
   entry "OLDAP-2.3" "Open LDAP Public License v2.3"
     ["http://www.openldap.org/devel/gitweb.cgi?p=openldap.git;a=blob;f=LICENSE;hb=d32cf54a32d581ab475d23c810b0a7fbaf8d63c3"],
   entry "OLDAP-2.4" "Open LDAP Public License v2.4"
     ["http://www.openldap.org/devel/gitweb.cgi?p=openldap.git;a=blob;f=LICENSE;hb=cd1284c4a91a8a380d904eee68d1583f989ed386"],
   entry "OLDAP-2.5" "Open LDAP Public License v2.5"
     ["http://www.openldap.org/devel/gitweb.cgi?p=openldap.git;a=blob;f=LICENSE;hb=6852b9d90022e8593c98205413380536b1b5a7cf"],
   entry "OLDAP-2.6" "Open LDAP Public License v2.6"
     ["http://www.openldap.org/devel/gitweb.cgi?p=openldap.git;a=blob;f=LICENSE;hb=1cae062821881f41b73012ba816434897abf4205"],
   entry "OLDAP-2.7" "Open LDAP Public License v2.7"
     ["http://www.openldap.org/devel/gitweb.cgi?p=openldap.git;a=blob;f=LICENSE;hb=47c2415c1df81556eeb39be6cad458ef87c534a2"],
   entry "OLDAP-2.8" "Open LDAP Public License v2.8"
     ["http://www.openldap.org/software/release/license.html"],
   entry "OSL-1.0" "Open Software License 1.0"
     ["https://opensource.org/licenses/OSL-1.0"],
   entry "OSL-1.1" "Open Software License 1.1"
     ["https://fedoraproject.org/wiki/Licensing/OSL1.1"],
   entry "OSL-2.0" "Open Software License 2.0"
     ["http://web.archive.org/web/20041020171434/http://www.rosenlaw.com/osl2.0.html"],
   entry "OSL-2.1" "Open Software License 2.1"
     ["http://web.archive.org/web/20050212003940/http://www.rosenlaw.com/osl21.htm",
      "https://opensource.org/licenses/OSL-2.1"],
   entry "OSL-3.0" "Open Software License 3.0"
     ["https://web.archive.org/web/20120101081418/http://rosenlaw.com:80/OSL3.0.htm",
      "https://opensource.org/licenses/OSL-3.0"],
   entry "PHP-3.0" "PHP License v3.0"
     ["http://www.php.net/license/3_0.txt",
      "https://opensource.org/licenses/PHP-3.0"],
   entry "PHP-3.01" "PHP License v3.01"
     ["http://www.php.net/license/3_01.txt"],
   entry "PostgreSQL" "PostgreSQL License"
     ["http://www.postgresql.org/about/licence",
      "https://opensource.org/licenses/PostgreSQL"],
   entry "Python-2.0" "Python License 2.0"
     ["https://opensource.org/licenses/Python-2.0"],
   entry "RPL-1.1" "Reciprocal Public License 1.1"
     ["https://opensource.org/licenses/RPL-1.1"],
   entry "RPL-1.5" "Reciprocal Public License 1.5"
     ["https://opensource.org/licenses/RPL-1.5"],
   entry "SGI-B-1.0" "SGI Free Software License B v1.0"
     ["http://oss.sgi.com/projects/FreeB/SGIFreeSWLicB.1.0.html"],
   entry "SGI-B-1.1" "SGI Free Software License B v1.1"
     ["http://oss.sgi.com/projects/FreeB/"],
   entry "SGI-B-2.0" "SGI Free Software License B v2.0"
     ["http://oss.sgi.com/projects/FreeB/SGIFreeSWLicB.2.0.pdf"],
   entry "SISSL" "Sun Industry Standards Source License v1.1"
     ["http://www.openoffice.org/licenses/sissl_license.html",
      "https://opensource.org/licenses/SISSL"],
   entry "SISSL-1.2" "Sun Industry Standards Source License v1.2"
     ["http://gridscheduler.sourceforge.net/Gridengine_SISSL_license.html"],
   entry "Spencer-86" "Spencer License 86"
     ["https://fedoraproject.org/wiki/Licensing/Henry_Spencer_Reg-Ex_Library_License"],
   entry "Spencer-94" "Spencer License 94"
     ["https://metacpan.org/release/KNOK/File-MMagic-1.30/source/COPYING#L28"],
   entry "Spencer-99" "Spencer License 99"
     ["http://www.opensource.apple.com/source/tcl/tcl-5/tcl/generic/regfronts.c"],
   entry "TU-Berlin-1.0" "Technische Universitaet Berlin License 1.0"
     ["https://github.com/swh/ladspa/blob/7bf6f3799fdba70fda297c2d8fd9f526803d9680/gsm/COPYRIGHT"],
   entry "TU-Berlin-2.0" "Technische Universitaet Berlin License 2.0"
     ["https://github.com/CorsixTH/deps/blob/fd339a9f526d1d9c9f01ccf39e438a015da50035/licences/libgsm.txt"],
   entry "Unicode-DFS-2015" "Unicode License Agreement - Data Files and Software (2015)"
     ["https://web.archive.org/web/20151224134844/http://unicode.org/copyright.html"],
   entry "Unicode-DFS-2016" "Unicode License Agreement - Data Files and Software (2016)"
     ["http://www.unicode.org/copyright.html"],
   entry "Unlicense" "The Unlicense"
     ["https://unlicense.org/"],
   entry "UPL-1.0" "Universal Permissive License v1.0"
     ["https://opensource.org/licenses/UPL"],
   entry "W3C" "W3C Software Notice and License (2002-12-31)"
     ["http://www.w3.org/Consortium/Legal/2002/copyright-software-20021231.html",
      "https://opensource.org/licenses/W3C"],
   entry "W3C-19980720" "W3C Software Notice and License (1998-07-20)"
     ["http://www.w3.org/Consortium/Legal/copyright-software-19980720.html"],
   entry "W3C-20150513" "W3C Software Notice and Document License (2015-05-13)"
     ["https://www.w3.org/Consortium/Legal/2015/copyright-software-and-document"],
   entry "WTFPL" "Do What The F*ck You Want To Public License"
     ["http://www.wtfpl.net/about/",
      "http://sam.zoy.org/wtfpl/COPYING"],
   entry "YPL-1.0" "Yahoo! Public License v1.0"
     ["http://www.zimbra.com/license/yahoo_public_license_1.0.html"],
   entry "YPL-1.1" "Yahoo! Public License v1.1"
     ["http://www.zimbra.com/license/yahoo_public_license_1.1.html"],
   entry "Zimbra-1.3" "Zimbra Public License v1.3"
     ["http://web.archive.org/web/20100302225219/http://www.zimbra.com/license/zimbra-public-license-1-3.html"],
   entry "Zimbra-1.4" "Zimbra Public License v1.4"
     ["http://www.zimbra.com/legal/zimbra-public-license-1-4"],
   entry "Zlib" "zlib License"
     ["http://www.zlib.net/zlib_license.html",
      "https://opensource.org/licenses/Zlib"],
   entry "ZPL-1.1" "Zope Public License 1.1"
     ["http://old.zope.org/Resources/License/ZPL-1.1"],
   entry "ZPL-2.0" "Zope Public License 2.0"
     ["http://old.zope.org/Resources/License/ZPL-2.0",
      "https://opensource.org/licenses/ZPL-2.0"],
   entry "ZPL-2.1" "Zope Public License 2.1"
     ["http://old.zope.org/Resources/ZPL/"]]

end Licensing.Bundled
