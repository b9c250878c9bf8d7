import Lifespan.Document.Token

-- Documents from their text. The pieces are taken one by one; what has been opened and not
-- yet closed stands on a stack, the innermost first.
namespace Lifespan.Document

inductive Unclosed
  -- last item first
  | sequence (items : List Document)
  | mapping (fields : List (String × Document)) (name : String)

inductive Expecting
  -- a value, or, right after the bracket, the closing bracket
  | document (first : Bool) (outer : List Unclosed)
  | fieldName (first : Bool) (fields : List (String × Document)) (outer : List Unclosed)
  | colon (fields : List (String × Document)) (name : String) (outer : List Unclosed)
  | separator (inner : Unclosed) (outer : List Unclosed)
  | nothing (result : Document)

namespace Expecting

def start : Expecting := .document false []

def filled (value : Document) : List Unclosed → Expecting
  | [] => .nothing value
  | .sequence items :: outer => .separator (.sequence (value :: items)) outer
  | .mapping fields name :: outer => .separator (.mapping (placeField name value fields) name) outer

-- So many documents may be open at once.
def depth : Nat := 127

def opened (bracket : Bracket) (outer : List Unclosed) : Option Expecting :=
  if outer.length < depth then
    match bracket with
    | .square => some (.document true (.sequence [] :: outer))
    | .curly => some (.fieldName true [] outer)
  else none

def closed : Bracket → Unclosed → List Unclosed → Option Expecting
  | .square, .sequence items, outer => some (filled (.sequence items.reverse) outer)
  | .curly, .mapping fields _, outer => some (filled (.mapping fields) outer)
  | _, _, _ => none

def step? : Expecting → Token → Option Expecting
  | .document _ outer, .opening bracket => opened bracket outer
  | .document _ outer, .scalar value => some (filled value outer)
  | .document true (inner :: outer), .closing bracket => closed bracket inner outer
  | .fieldName _ fields outer, .scalar (.text name) => some (.colon fields name outer)
  | .fieldName true fields outer, .closing bracket => closed bracket (.mapping fields "") outer
  | .colon fields name outer, .colon => some (.document false (.mapping fields name :: outer))
  | .separator (.sequence items) outer, .comma => some (.document false (.sequence items :: outer))
  | .separator (.mapping fields _) outer, .comma => some (.fieldName false fields outer)
  | .separator inner outer, .closing bracket => closed bracket inner outer
  | _, _ => none

def result? : Expecting → Option Document
  | .nothing result => some result
  | _ => none

end Expecting

def ofTokens? (tokens : List Token) : Option Document :=
  (tokens.foldlM Expecting.step? Expecting.start).bind Expecting.result?

def parse? (text : String) : Option Document := (Token.ofText? text).bind ofTokens?

end Lifespan.Document
