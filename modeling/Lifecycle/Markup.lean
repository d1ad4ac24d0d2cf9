import Lifecycle.Printed
import Lifecycle.Text.Blank

/-! # Markup

Text for people may hold tags: words in brackets that give a style to what follows, until a closing
tag takes the style away again. A backslash in front of a tag guards it, so that it stands for
itself, and two backslashes there stand for one. A closing tag needs something to close: the tag that
was opened last or, if it bears a name, one of that name. Where there is none the text cannot be
shown. Names of pictures stand between colons.

The terminal library knows which names mean the same style, which pictures there are and how the
parameters of an action are written. -/

namespace Lifecycle

/-- What is known of styles, pictures and actions. -/
structure Console where
  /-- The name of a style in the form that all names of the style have. -/
  style : String → String := fun name => (Text.strip name).map Char.toLower
  /-- The picture of a name. -/
  emoji : String → Option String := fun _ => none
  /-- What is wrong with the parameters of an action, if anything is. -/
  complaint : String → Option String := fun _ => none

namespace Markup

/-! ### Pieces -/

/-- A piece of marked-up text. -/
inductive Piece
  /-- Text without tags. -/
  | plain (text : List Char)
  /-- The number of backslashes in front of a tag, and what stands between its brackets. -/
  | mark (guards : Nat) (body : List Char)
  deriving DecidableEq, Repr

/-- The number of characters of a piece. -/
def Piece.length : Piece → Nat
  | .plain text => text.length
  | .mark guards body => guards + body.length + 2

/-- What stands between brackets may begin with this character. -/
def beginsTag (c : Char) : Bool := c.isLower || c == '#' || c == '/' || c == '@'

/-- What follows an opening bracket up to the closing one, if that makes a tag. Another opening
bracket must not come before. -/
def tagBody? : List Char → Option (List Char)
  | [] => none
  | c :: rest =>
    let body := rest.takeWhile fun d => d != '[' && d != ']'
    if beginsTag c && (rest.drop body.length).head? == some ']' then some (c :: body) else none

/-- The tag at the beginning of a text and the backslashes in front of it. -/
def markAt? (text : List Char) : Option Piece :=
  let guards := (text.takeWhile (· == '\\')).length
  match text.drop guards with
  | '[' :: rest => (tagBody? rest).map (Piece.mark guards)
  | _ => none

/-- Puts a character in front of pieces. -/
def consPlain (c : Char) : List Piece → List Piece
  | .plain text :: rest => .plain (c :: text) :: rest
  | pieces => .plain [c] :: pieces

/-- The pieces of a text behind its first `skip` characters. -/
def pieces : Nat → List Char → List Piece
  | _, [] => []
  | skip + 1, _ :: rest => pieces skip rest
  | 0, c :: rest =>
    match markAt? (c :: rest) with
    | some mark => mark :: pieces (mark.length - 1) rest
    | none => consPlain c (pieces 0 rest)

/-- A piece of a text that is to stand for itself. -/
def Piece.guarded : Piece → Piece
  | .plain text => .plain text
  | .mark guards body => .mark (2 * guards + 1) body

/-- A single backslash at the end gets a guard of its own, which is seen. -/
def guardEnd (text : List Char) : List Char :=
  match text.reverse with
  | ['\\'] => text ++ ['\\']
  | '\\' :: c :: _ => if c == '\\' then text else text ++ ['\\']
  | _ => text

/-- A text that is to stand for itself. -/
def escape (s : String) : List Piece := (pieces 0 (guardEnd s.toList)).map Piece.guarded

/-! ### Tags -/

/-- A tag. Its name ends at an equals sign, and parameters follow. -/
structure Tag where
  name : String
  parameters : Option String
  deriving DecidableEq, Repr

/-- The tag with this between its brackets. -/
def Tag.ofBody (body : List Char) : Tag :=
  let name := body.takeWhile (· != '=')
  ⟨String.ofList name, (body.drop name.length).tail?.map String.ofList⟩

/-- The tag in its brackets. -/
def Tag.text (t : Tag) : String :=
  "[" ++ t.name ++ (t.parameters.map ("=" ++ ·)).getD "" ++ "]"

/-- Marked-up text in a style. -/
def styled (style text : String) : String := "[" ++ style ++ "]" ++ text ++ "[/" ++ style ++ "]"

/-- Why a text cannot be shown. -/
inductive Fault
  /-- The tag closes a name that is not open. -/
  | notOpen (tag : Tag) (position : Nat)
  /-- There is nothing to close. -/
  | nothingOpen (position : Nat)
  /-- The parameters of an action make no sense. -/
  | badAction (complaint : String)
  deriving DecidableEq, Repr

/-- The text of a fault. -/
def Fault.message : Fault → String
  | .notOpen tag position =>
    "closing tag '" ++ tag.text ++ s!"' at position {position} doesn't match any open tag"
  | .nothingOpen position => s!"closing tag '[/]' at position {position} has nothing to close"
  | .badAction complaint => complaint

/-- The parameters of an action are looked at when it is closed. -/
def finish (console : Console) (tag : Tag) (opened : List Tag) : Except Fault (List Tag) :=
  let parameters := if tag.name.toList.head? == some '@' then tag.parameters.getD "" else ""
  if parameters = "" then .ok opened
  else
    match console.complaint parameters with
    | some complaint => .error (.badAction complaint)
    | none => .ok opened

/-- The tags that are open behind a tag, the last one first. -/
def afterTag (console : Console) (position : Nat) (opened : List Tag) (body : List Char) :
    Except Fault (List Tag) :=
  let tag := Tag.ofBody body
  match body with
  | '/' :: more =>
    let name := Text.strip (String.ofList (more.takeWhile (· != '=')))
    if name = "" then
      match opened with
      | [] => .error (.nothingOpen position)
      | last :: others => finish console last others
    else
      let isMeant (t : Tag) : Bool := t.name == console.style name
      match opened.find? isMeant with
      | none => .error (.notOpen tag position)
      | some found => finish console found (opened.eraseP isMeant)
  | _ => .ok ({ tag with name := console.style tag.name } :: opened)

/-- Every closing tag among the pieces has something to close, where the first of them stands at a
position behind tags that are open. -/
def check (console : Console) : Nat → List Tag → List Piece → Except Fault Unit
  | _, _, [] => .ok ()
  | position, opened, .plain text :: rest => check console (position + text.length) opened rest
  | position, opened, .mark guards body :: rest =>
    let behind := position + guards + body.length + 2
    if guards % 2 = 1 then check console behind opened rest
    else
      match afterTag console (position + guards) opened body with
      | .error fault => .error fault
      | .ok opened => check console behind opened rest

/-! ### Pictures -/

/-- The name between the colon at the beginning of the text and the next one, if no white space comes
before that. -/
def code? : List Char → Option (List Char)
  | ':' :: rest =>
    let name := rest.takeWhile fun c => c != ':' && !Text.isBlank c
    if (rest.drop name.length).head? == some ':' then some name else none
  | _ => none

/-- Selectors of the ways in which a picture may be shown, by the end of its name. -/
def variants : List (List Char × Char) :=
  [("-emoji".toList, '\ufe0f'), ("-text".toList, '\ufe0e')]

/-- The picture of a name. -/
def picture? (console : Console) (name : List Char) : Option (List Char) :=
  match variants.find? fun v => v.1.isSuffixOf name with
  | some (ending, selector) =>
    (console.emoji (String.ofList (name.take (name.length - ending.length)))).map fun picture =>
      picture.toList ++ [selector]
  | none => (console.emoji (String.ofList name)).map String.toList

/-- A text with pictures in place of their names, behind its first `skip` characters. -/
def pictured (console : Console) : Nat → List Char → List Char
  | _, [] => []
  | skip + 1, _ :: rest => pictured console skip rest
  | 0, c :: rest =>
    match code? (c :: rest) with
    | some name =>
      (picture? console name).getD (':' :: name ++ [':']) ++ pictured console (name.length + 1) rest
    | none => c :: pictured console 0 rest

/-! ### What is seen -/

/-- A backslash in front of a bracket that opens no tag is not seen. -/
def dropGuards : List Char → List Char
  | '\\' :: '[' :: rest => '[' :: dropGuards rest
  | c :: rest => c :: dropGuards rest
  | [] => []

/-- What is seen of a piece. Of two backslashes in front of a tag one is seen, and of a guarded tag
all but its guard. -/
def Piece.seen (console : Console) : Piece → List Char
  | .plain text => pictured console 0 (dropGuards text)
  | .mark guards body =>
    List.replicate (guards / 2) '\\' ++
      if guards % 2 = 1 then pictured console 0 ('[' :: body ++ [']']) else []

/-- What is seen of a text. -/
def seen (console : Console) (ps : List Piece) : String :=
  String.ofList (ps.flatMap (Piece.seen console))

end Markup

namespace Console

/-- A text as it is seen, if it can be shown. -/
def read (console : Console) (ps : List Markup.Piece) : Except Markup.Fault String :=
  (Markup.check console 0 [] ps).map fun _ => Markup.seen console ps

/-- A marked-up text as it is seen. -/
def shown (console : Console) (s : String) : Except Markup.Fault String :=
  console.read (Markup.pieces 0 s.toList)

/-- A marked-up text on a line of its own. -/
def line (console : Console) (s : String) : Except Markup.Fault String :=
  (console.shown s).map printedLine

/-- A text that stands for itself, as it is seen. -/
def literal (console : Console) (s : String) : String := Markup.seen console (Markup.escape s)

end Console

end Lifecycle
