/-!
Regular patterns for text: how a pattern is written, which texts it describes, and a matcher that
reads a text character by character. After each character the matcher goes on with the pattern for
what may follow.
-/
namespace FleetRegistry.Schema

structure CharRange where
  first : Char
  last : Char

inductive Pattern where
  | never
  | empty
  /-- One character of any of these ranges. -/
  | oneOf (ranges : List CharRange)
  | char (c : Char)
  | followedBy (first second : Pattern)
  | either (left right : Pattern)
  | optional (p : Pattern)
  | repeated (p : Pattern)

namespace Pattern

def inRanges (ranges : List CharRange) (c : Char) : Bool :=
  ranges.any fun range => range.first ≤ c && c ≤ range.last

inductive Describes : Pattern → List Char → Prop
  | empty : Describes .empty []
  | oneOf {ranges : List CharRange} {c : Char} (mem : inRanges ranges c = true) :
    Describes (.oneOf ranges) [c]
  | char (c : Char) : Describes (.char c) [c]
  | followedBy {p q : Pattern} {s t : List Char} (first : Describes p s) (second : Describes q t) :
    Describes (.followedBy p q) (s ++ t)
  | left {p q : Pattern} {s : List Char} (first : Describes p s) : Describes (.either p q) s
  | right {p q : Pattern} {s : List Char} (second : Describes q s) : Describes (.either p q) s
  | absent (p : Pattern) : Describes (.optional p) []
  | present {p : Pattern} {s : List Char} (first : Describes p s) : Describes (.optional p) s
  | none (p : Pattern) : Describes (.repeated p) []
  | more {p : Pattern} {s t : List Char} (first : Describes p s)
    (rest : Describes (.repeated p) t) : Describes (.repeated p) (s ++ t)

def acceptsEmpty : Pattern → Bool
  | never => false
  | empty => true
  | oneOf _ => false
  | char _ => false
  | followedBy p q => p.acceptsEmpty && q.acceptsEmpty
  | either p q => p.acceptsEmpty || q.acceptsEmpty
  | optional _ => true
  | repeated _ => true

/-- The pattern for what may follow a first character. -/
def after (c : Char) : Pattern → Pattern
  | never => never
  | empty => never
  | oneOf ranges => if inRanges ranges c then empty else never
  | char d => if c = d then empty else never
  | followedBy p q =>
    if p.acceptsEmpty then either (followedBy (p.after c) q) (q.after c)
    else followedBy (p.after c) q
  | either p q => either (p.after c) (q.after c)
  | optional p => p.after c
  | repeated p => followedBy (p.after c) (repeated p)

def holds (p : Pattern) : List Char → Bool
  | [] => p.acceptsEmpty
  | c :: rest => (p.after c).holds rest

/-- How a class is written: single characters first as they are. -/
def rangeText (range : CharRange) : List Char :=
  if range.first = range.last then [range.first] else [range.first, '-', range.last]

/-- Whether a pattern needs parentheses before it is repeated or made optional. -/
def isCompound : Pattern → Bool
  | followedBy .. => true
  | either .. => true
  | _ => false

/-- Puts parentheses around the text of a compound pattern. -/
def grouped (p : Pattern) (text : List Char) : List Char :=
  if p.isCompound then '(' :: text ++ [')'] else text

def text : Pattern → List Char
  | never => ['[', ']']
  | empty => []
  | oneOf ranges => '[' :: ranges.flatMap rangeText ++ [']']
  | char c => if c = '.' then ['\\', '.'] else [c]
  | followedBy p q => p.text ++ q.text
  | either p q => p.text ++ '|' :: q.text
  | optional p => p.grouped p.text ++ ['?']
  | repeated p => p.grouped p.text ++ ['*']

end Pattern

end FleetRegistry.Schema
