/-! # References to license texts

Web addresses of license texts come in many spellings. Two addresses *look the same* when they
differ in nothing but the scheme, a `www.` in front of the host, and the endings `.txt` and `.md`.

* `withoutScheme`, `canonical`, `looksLike` — the comparison.
* `isValid` — whether a text can be an address at all.
-/

namespace Licensing.Uri

/-! ## Looking the same -/

/-- What follows the scheme. A text without a colon, or with nothing or a slash before the first
colon, has no scheme and stays whole. -/
def withoutScheme (uri : List Char) : List Char :=
  let scheme := uri.takeWhile (· ≠ ':')
  match uri.drop scheme.length with
  | _ :: rest => if scheme.isEmpty || scheme.contains '/' then uri else rest
  | [] => uri

def dropEnding (ending text : List Char) : List Char :=
  if ending.isSuffixOf text then text.take (text.length - ending.length) else text

/-- Removes `www.` from the front of the host. -/
def dropWww (rest : List Char) : List Char :=
  match rest with
  | '/' :: '/' :: 'w' :: 'w' :: 'w' :: '.' :: host => '/' :: '/' :: host
  | _ => rest

/-- The part behind the scheme without what does not count. -/
def canonical (rest : List Char) : List Char :=
  dropWww (dropEnding ".md".toList (dropEnding ".txt".toList rest))

/-- Whether two addresses look the same. -/
def looksLike (a b : String) : Bool :=
  let restA := withoutScheme a.toList
  let restB := withoutScheme b.toList
  restA == restB || canonical restA == canonical restB

/-! ## Validity -/

/-- Reserved and unreserved characters of an address, and the percent sign. -/
def isUriCharacter (c : Char) : Bool :=
  c.isAlphanum || "-._~:/?#[]@!$&'()*+,;=%".toList.contains c

def isSchemeCharacter (c : Char) : Bool :=
  c.isAlphanum || c == '+' || c == '-' || c == '.'

/-- What follows a scheme made of scheme characters that starts with a letter. -/
def afterProperScheme (uri : List Char) : List Char :=
  let scheme := uri.takeWhile (· ≠ ':')
  match uri.drop scheme.length with
  | _ :: rest =>
    if (scheme.head?.any Char.isAlpha) && scheme.all isSchemeCharacter then rest else uri
  | [] => uri

/-- The authority: what stands between a double slash and the path, the query or the fragment. -/
def authority (uri : List Char) : List Char :=
  match afterProperScheme uri with
  | '/' :: '/' :: rest => rest.takeWhile fun c => c ≠ '/' && c ≠ '?' && c ≠ '#'
  | _ => []

/-- Whether a text can be an address: not empty, made of address characters, and with both or none
of the brackets of a numeric host. What stands between the brackets is not looked at. -/
def isValid (uri : String) : Bool :=
  let chars := uri.toList
  let host := authority chars
  !chars.isEmpty && chars.all isUriCharacter && host.contains '[' == host.contains ']'

end Licensing.Uri
