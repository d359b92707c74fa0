import Relux.Task

/-! The scrubber every captured line passes: known token prefixes, and the values of keys
that name a secret. -/

namespace Relux

def redactionPlaceholder : List Char := "***REDACTED***".toList

def secretPrefixes : List String :=
  ["sk-ant-", "sk-", "github_pat_", "ghp_", "gho_", "ghu_", "ghs_", "ghr_", "xoxb-", "xoxp-",
    "xoxa-", "xoxs-", "xapp-", "glpat-", "ya29.", "AKIA", "ASIA", "AIza", "relux_agt_"]

def secretKeyFragments : List String :=
  ["key", "token", "secret", "password", "passwd", "auth", "credential"]

def isWrapper (c : Char) : Bool := "\"'`()[]\x7b\x7d,;.<>".toList.contains c

def utf8Len (s : List Char) : Nat := s.foldl (fun n c => n + c.utf8Size) 0

def stripWrappers (token : List Char) : List Char × List Char × List Char :=
  let trimmed := token.dropWhile isWrapper
  (token.takeWhile isWrapper, (trimmed.reverse.dropWhile isWrapper).reverse,
    (trimmed.reverse.takeWhile isWrapper).reverse)

def looksLikeSecretToken (token : List Char) : Bool :=
  12 ≤ utf8Len token && secretPrefixes.any (fun p => p.toList.isPrefixOf token)

def namesSecret (u : Unicode) (key : List Char) : Bool :=
  secretKeyFragments.any (containsText (u.toLowercase (String.ofList key)))

def isSecretKeyMarker (u : Unicode) (word : List Char) : Bool :=
  match word.reverse with
  | ':' :: key => namesSecret u (stripWrappers key.reverse).2.1
  | '=' :: key => namesSecret u (stripWrappers key.reverse).2.1
  | _ => false

def maskCore (word : List Char) : List Char :=
  let (lead, core, trail) := stripWrappers word
  if 6 ≤ utf8Len core then lead ++ redactionPlaceholder ++ trail else word

/-- A `key=value` or `key:value` word with its value masked, for the first separator. -/
def redactKeyValueAt (u : Unicode) (word : List Char) (sep : Char) : Option (List Char) := do
  let (keyRaw, value) ← splitOnce sep word
  if value.head? = some '/' ∨ value.isEmpty then none
  else
    let key := trimMatches (fun c => isWrapper c || isWhitespace c) keyRaw
    if key.isEmpty then none
    else
      let (lead, core, trail) := stripWrappers value
      if namesSecret u key ∧ 6 ≤ utf8Len core then
        some (keyRaw ++ [sep] ++ lead ++ redactionPlaceholder ++ trail)
      else none

def redactKeyValue (u : Unicode) (word : List Char) : Option (List Char) :=
  (redactKeyValueAt u word '=').or (redactKeyValueAt u word ':')

def redactWord (u : Unicode) (word : List Char) : List Char :=
  match redactKeyValue u word with
  | some redacted => redacted
  | none =>
    let (lead, core, trail) := stripWrappers word
    if looksLikeSecretToken core then lead ++ redactionPlaceholder ++ trail else word

def redactNext (u : Unicode) (valuePending : Bool) (word : List Char) : List Char :=
  if valuePending then maskCore word else redactWord u word

def redactLineGo (u : Unicode) : List Char → Bool → List Char → List Char
  | word, valuePending, [] => if word.isEmpty then [] else redactNext u valuePending word
  | word, valuePending, c :: cs =>
    if isWhitespace c then
      if word.isEmpty then c :: redactLineGo u [] valuePending cs
      else redactNext u valuePending word ++ c :: redactLineGo u [] (isSecretKeyMarker u word) cs
    else redactLineGo u (word ++ [c]) valuePending cs

def redactLine (u : Unicode) (line : List Char) : List Char := redactLineGo u [] false line

def redactSecrets (u : Unicode) (input : String) : String :=
  String.ofList (joinFields ['\n']
    ((splitFields (· == '\n') input.toList).map (redactLine u)))

end Relux
