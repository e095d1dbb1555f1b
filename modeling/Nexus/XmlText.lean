import Nexus.PlainText

namespace Nexus

inductive XmlTag where
  | decl (version encoding : String)
  | start (name : String) (attributes : List (String × String))
  | empty (name : String) (attributes : List (String × String))
  | close (name : String)

/-- What a reader reads. An attribute that is malformed or cannot be decoded is `none`. -/
inductive XmlEvent where
  | decl
  | comment
  | text
  | start (name : String) (attributes : List (Option (String × String)))
  | empty (name : String) (attributes : List (Option (String × String)))
  | close
  | other
  deriving DecidableEq

def XmlEvent.isText : XmlEvent → Bool
  | .text => true
  | _ => false

def XmlTag.event : XmlTag → XmlEvent
  | .decl _ _ => .decl
  | .start name attributes => .start name (attributes.map some)
  | .empty name attributes => .empty name (attributes.map some)
  | .close _ => .close

/-- The events up to the end of the text, or up to the first that cannot be read. -/
structure XmlReading where
  events : List XmlEvent
  complete : Bool

structure XmlLibrary where
  escape : String → String
  read : String → XmlReading

namespace XmlText

variable (escape : String → String)

def renderAttributes : List (String × String) → String
  | [] => ""
  | (key, value) :: rest =>
    " " ++ key ++ "=\"" ++ escape value ++ "\"" ++ renderAttributes rest

def renderTag : XmlTag → String
  | .decl version encoding =>
    "<?xml version=\"" ++ version ++ "\" encoding=\"" ++ encoding ++ "\"?>"
  | .start name attributes => "<" ++ name ++ renderAttributes escape attributes ++ ">"
  | .empty name attributes => "<" ++ name ++ renderAttributes escape attributes ++ "/>"
  | .close name => "</" ++ name ++ ">"

/-- A writer that starts each tag on a line of its own, one tab for each open element. -/
def renderFrom (depth : Nat) : List XmlTag → String
  | [] => ""
  | tag :: rest =>
    match tag with
    | .start _ _ =>
      indentation depth ++ renderTag escape tag ++ renderFrom (depth + 1) rest
    | .close _ =>
      indentation (depth - 1) ++ renderTag escape tag ++ renderFrom (depth - 1) rest
    | _ => indentation depth ++ renderTag escape tag ++ renderFrom depth rest

def render : List XmlTag → String
  | [] => ""
  | tag :: rest => renderTag escape tag ++ renderFrom escape 0 rest

def attributesBytes : List (String × String) → Nat
  | [] => 0
  | (key, value) :: rest =>
    1 + key.utf8ByteSize + 2 + (escape value).utf8ByteSize + 1 + attributesBytes rest

def tagBytes : XmlTag → Nat
  | .decl version encoding => 15 + version.utf8ByteSize + 12 + encoding.utf8ByteSize + 3
  | .start name attributes => 1 + name.utf8ByteSize + attributesBytes escape attributes + 1
  | .empty name attributes => 1 + name.utf8ByteSize + attributesBytes escape attributes + 2
  | .close name => 2 + name.utf8ByteSize + 1

def bytesFrom (depth : Nat) : List XmlTag → Nat
  | [] => 0
  | tag :: rest =>
    match tag with
    | .start _ _ => depth + 1 + tagBytes escape tag + bytesFrom (depth + 1) rest
    | .close _ => depth - 1 + 1 + tagBytes escape tag + bytesFrom (depth - 1) rest
    | _ => depth + 1 + tagBytes escape tag + bytesFrom depth rest

def bytes : List XmlTag → Nat
  | [] => 0
  | tag :: rest => tagBytes escape tag + bytesFrom escape 0 rest

theorem utf8ByteSize_renderAttributes (attributes : List (String × String)) :
    (renderAttributes escape attributes).utf8ByteSize = attributesBytes escape attributes := by
  induction attributes with
  | nil => rfl
  | cons item _ ih =>
    obtain ⟨_, _⟩ := item
    have hspace : " ".utf8ByteSize = 1 := rfl
    have hopen : "=\"".utf8ByteSize = 2 := rfl
    have hclose : "\"".utf8ByteSize = 1 := rfl
    simp only [renderAttributes, attributesBytes, String.utf8ByteSize_append, ih, hspace, hopen,
      hclose]

theorem utf8ByteSize_renderTag : ∀ tag : XmlTag,
    (renderTag escape tag).utf8ByteSize = tagBytes escape tag
  | .decl version encoding => by
    have hversion : "<?xml version=\"".utf8ByteSize = 15 := rfl
    have hencoding : "\" encoding=\"".utf8ByteSize = 12 := rfl
    have hend : "\"?>".utf8ByteSize = 3 := rfl
    show ("<?xml version=\"" ++ version ++ "\" encoding=\"" ++ encoding ++
      "\"?>").utf8ByteSize = 15 + version.utf8ByteSize + 12 + encoding.utf8ByteSize + 3
    simp only [String.utf8ByteSize_append, hversion, hencoding, hend]
  | .start name attributes => by
    have hlt : "<".utf8ByteSize = 1 := rfl
    have hgt : ">".utf8ByteSize = 1 := rfl
    show ("<" ++ name ++ renderAttributes escape attributes ++ ">").utf8ByteSize =
      1 + name.utf8ByteSize + attributesBytes escape attributes + 1
    simp only [String.utf8ByteSize_append, hlt, hgt, utf8ByteSize_renderAttributes]
  | .empty name attributes => by
    have hlt : "<".utf8ByteSize = 1 := rfl
    have hgt : "/>".utf8ByteSize = 2 := rfl
    show ("<" ++ name ++ renderAttributes escape attributes ++ "/>").utf8ByteSize =
      1 + name.utf8ByteSize + attributesBytes escape attributes + 2
    simp only [String.utf8ByteSize_append, hlt, hgt, utf8ByteSize_renderAttributes]
  | .close name => by
    have hlt : "</".utf8ByteSize = 2 := rfl
    have hgt : ">".utf8ByteSize = 1 := rfl
    show ("</" ++ name ++ ">").utf8ByteSize = 2 + name.utf8ByteSize + 1
    simp only [String.utf8ByteSize_append, hlt, hgt]

theorem utf8ByteSize_renderFrom (depth : Nat) (tags : List XmlTag) :
    (renderFrom escape depth tags).utf8ByteSize = bytesFrom escape depth tags := by
  induction tags generalizing depth with
  | nil => rfl
  | cons tag _ ih =>
    cases tag <;>
      simp only [renderFrom, bytesFrom, String.utf8ByteSize_append, utf8ByteSize_indentation,
        utf8ByteSize_renderTag, ih]

theorem utf8ByteSize_render (tags : List XmlTag) :
    (render escape tags).utf8ByteSize = bytes escape tags := by
  cases tags with
  | nil => rfl
  | cons =>
    simp only [render, bytes, String.utf8ByteSize_append, utf8ByteSize_renderTag,
      utf8ByteSize_renderFrom]

end XmlText

namespace XmlLibrary

variable (library : XmlLibrary)

/-- The text is read whole as these tags, but for the white space between them. -/
def ReadsAs (text : String) (tags : List XmlTag) : Prop :=
  (library.read text).complete = true ∧
    (library.read text).events.filter (fun event => !event.isText) = tags.map XmlTag.event

end XmlLibrary

end Nexus
