import Licensing.Bundled.Entry

/-! # The bundled license exceptions

The widely used exceptions of the SPDX list.
-/

namespace Licensing.Bundled

open Licensing.Document

def exceptions : Table :=
  [entry "389-exception" "389 Directory Server Exception"
     ["http://directory.fedoraproject.org/wiki/GPL_Exception_License_Text"],
   entry "Autoconf-exception-2.0" "Autoconf exception 2.0"
     ["http://ac-archive.sourceforge.net/doc/copyright.html"],
   entry "Autoconf-exception-3.0" "Autoconf exception 3.0"
     ["http://www.gnu.org/licenses/autoconf-exception-3.0.html"],
   entry "Bison-exception-2.2" "Bison exception 2.2"
     ["http://git.savannah.gnu.org/cgit/bison.git/tree/data/yacc.c?id=193d7c7054ba7197b0789e14965b739162319b5e#n141"],
   entry "Classpath-exception-2.0" "Classpath exception 2.0"
     ["http://www.gnu.org/software/classpath/license.html",
      "https://fedoraproject.org/wiki/Licensing/GPL_Classpath_Exception"],
   entry "FLTK-exception" "FLTK exception"
     ["http://www.fltk.org/COPYING.php"],
   entry "Font-exception-2.0" "Font exception 2.0"
     ["http://www.gnu.org/licenses/gpl-faq.html#FontException"],
   entry "GCC-exception-2.0" "GCC Runtime Library exception 2.0"
     ["https://gcc.gnu.org/git/?p=gcc.git;a=blob;f=gcc/libgcc1.c;h=762f5143fc6eed57b6797c82710f3538aa52b40b;hb=cb143a3ce4fb417c68f5fa2691a1b1b1053dfba9#l10"],
   entry "GCC-exception-3.1" "GCC Runtime Library exception 3.1"
     ["http://www.gnu.org/licenses/gcc-exception-3.1.html"],
   entry "GPL-CC-1.0" "GPL Cooperation Commitment 1.0"
     ["https://github.com/gplcc/gplcc/blob/master/Project/COMMITMENT",
      "https://gplcc.github.io/gplcc/Project/README-PROJECT.html"],
   entry "LGPL-3.0-linking-exception" "LGPL-3.0 Linking Exception"
     ["https://raw.githubusercontent.com/go-xmlpath/xmlpath/v2/LICENSE"],
   entry "Libtool-exception" "Libtool Exception"
     ["http://git.savannah.gnu.org/cgit/libtool.git/tree/m4/libtool.m4"],
   entry "Linux-syscall-note" "Linux Syscall Note"
     ["https://git.kernel.org/pub/scm/linux/kernel/git/torvalds/linux.git/tree/COPYING"],
   entry "LLVM-exception" "LLVM Exception"
     ["http://llvm.org/foundation/relicensing/LICENSE.txt"],
   entry "OCaml-LGPL-linking-exception" "OCaml LGPL Linking Exception"
     ["https://caml.inria.fr/ocaml/license.en.html"],
   entry "OpenJDK-assembly-exception-1.0" "OpenJDK Assembly exception 1.0"
     ["http://openjdk.java.net/legal/assembly-exception.html"],
   entry "Qt-GPL-exception-1.0" "Qt GPL exception 1.0"
     ["http://code.qt.io/cgit/qt/qtbase.git/tree/LICENSE.FDL"],
   entry "Qt-LGPL-exception-1.1" "Qt LGPL exception 1.1"
     ["http://code.qt.io/cgit/qt/qtbase.git/tree/LGPL_EXCEPTION.txt"],
   entry "Universal-FOSS-exception-1.0" "Universal FOSS Exception, Version 1.0"
     ["https://oss.oracle.com/licenses/universal-foss-exception/"],
   entry "WxWindows-exception-3.1" "WxWindows Library Exception 3.1"
     ["http://www.opensource.org/licenses/WXwindows"]]

end Licensing.Bundled
