import ProtoLayout.Json.Error

/-!
A reading position in JSON text: the line, and the column in bytes.
-/

namespace ProtoLayout.Json

def Position.step (p : Position) (c : Char) : Position :=
  if c = '\n' then ⟨p.line + 1, 0⟩ else ⟨p.line, p.column + c.utf8Size⟩

def Position.over (p : Position) : List Char → Position
  | [] => p
  | c :: cs => (p.step c).over cs

/-- A character cut in the middle moves the column by the bytes read of it. -/
def Position.bytes (p : Position) : List Char → Nat → Position
  | [], _ => p
  | _, 0 => p
  | c :: cs, n + 1 =>
    if c = '\n' then Position.bytes ⟨p.line + 1, 0⟩ cs n
    else if c.utf8Size ≤ n + 1 then Position.bytes ⟨p.line, p.column + c.utf8Size⟩ cs (n + 1 - c.utf8Size)
    else ⟨p.line, p.column + n + 1⟩

def byteLength (cs : List Char) : Nat := cs.foldl (fun n c => n + c.utf8Size) 0

structure Cursor where
  rest : List Char
  pos : Position

namespace Cursor

def ofString (s : String) : Cursor := ⟨s.toList, ⟨1, 0⟩⟩

def peek? (c : Cursor) : Option Char := c.rest.head?

def next (c : Cursor) : Cursor :=
  match c.rest with
  | [] => c
  | ch :: tl => ⟨tl, c.pos.step ch⟩

/-- The place one byte further, where an error about the next character is reported. -/
def peekPos (c : Cursor) : Position := c.pos.bytes c.rest 1

def isBlank (ch : Char) : Bool := ch = ' ' || ch = '\n' || ch = '\t' || ch = '\r'

def skipBlank : List Char → Position → Cursor
  | [], p => ⟨[], p⟩
  | ch :: tl, p => if isBlank ch then skipBlank tl (p.step ch) else ⟨ch :: tl, p⟩

def blank (c : Cursor) : Cursor := skipBlank c.rest c.pos

def finish (c : Cursor) : Cursor := ⟨[], c.pos.over c.rest⟩

end Cursor

end ProtoLayout.Json
