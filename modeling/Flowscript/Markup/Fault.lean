/-!
# Faults in markup

What can be wrong with a document, and the wording of each fault. Offsets count bytes in UTF-8:
those inside an attribute list from the character after `<`, those inside a text or an attribute
value from its start.

The faults are the documented errors of the event reader, kind by kind: markup that is not closed
is a syntax error; end tags without their start and document types without a name are ill-formed;
attribute lists and references have faults of their own. An `Error` says where the fault is, or what
is wrong with the tree as a whole.
-/

namespace Flowscript.Markup

/-- What can be wrong with the number of a character reference. -/
inductive NumberFault where
  | sign
  | empty
  | digit
  | tooLarge
  | zero
  | notScalar (code : Nat)
deriving DecidableEq, Repr

def NumberFault.message : NumberFault → String
  | .sign => "unexpected number sign"
  | .empty => "cannot parse integer from empty string"
  | .digit => "invalid digit found in string"
  | .tooLarge => "number too large to fit in target type"
  | .zero => "0x0 character is not permitted in XML"
  | .notScalar code => "`" ++ toString code ++ "` is not a valid codepoint"

/-- What can be wrong with a piece of markup. -/
inductive Fault where
  | tagNotClosed
  | instructionNotClosed
  | unknownMarkup
  | cdataNotClosed
  | commentNotClosed
  | doctypeNotClosed
  | doctypeUnnamed
  | mismatchedEnd (opened found : String)
  | unmatchedEnd (found : String)
  | expectedEquals (offset : Nat)
  | expectedValue (offset : Nat)
  | unquotedValue (offset : Nat)
  | missingQuote (offset : Nat) (quote : Char)
  | duplicateAttribute (offset earlier : Nat)
  | unknownEntity (start stop : Nat) (name : String)
  | unterminatedEntity (start stop : Nat)
  | characterReference (fault : NumberFault)
deriving DecidableEq, Repr

def Fault.message : Fault → String
  | .tagNotClosed => "syntax error: tag not closed: `>` not found before end of input"
  | .instructionNotClosed =>
    "syntax error: processing instruction or xml declaration not closed: " ++
      "`?>` not found before end of input"
  | .unknownMarkup => "syntax error: unknown or missed symbol in markup"
  | .cdataNotClosed => "syntax error: CDATA not closed: `]]>` not found before end of input"
  | .commentNotClosed => "syntax error: comment not closed: `-->` not found before end of input"
  | .doctypeNotClosed => "syntax error: DOCTYPE not closed: `>` not found before end of input"
  | .doctypeUnnamed =>
    "ill-formed document: `<!DOCTYPE>` declaration does not contain a name of a document type"
  | .mismatchedEnd opened found =>
    "ill-formed document: expected `</" ++ opened ++ ">`, but `</" ++ found ++ ">` was found"
  | .unmatchedEnd found =>
    "ill-formed document: close tag `</" ++ found ++ ">` does not match any open tag"
  | .expectedEquals offset =>
    "position " ++ toString offset ++ ": attribute key must be directly followed by `=` or space"
  | .expectedValue offset =>
    "position " ++ toString offset ++ ": `=` must be followed by an attribute value"
  | .unquotedValue offset =>
    "position " ++ toString offset ++ ": attribute value must be enclosed in `\"` or `'`"
  | .missingQuote offset quote =>
    "position " ++ toString offset ++ ": missing closing quote `" ++ String.singleton quote ++
      "` in attribute value"
  | .duplicateAttribute offset earlier =>
    "position " ++ toString offset ++ ": duplicated attribute, previous declaration at position " ++
      toString earlier
  | .unknownEntity start stop name =>
    "at " ++ toString start ++ ".." ++ toString stop ++ ": unrecognized entity `" ++ name ++ "`"
  | .unterminatedEntity start stop =>
    "Error while escaping character at range " ++ toString start ++ ".." ++ toString stop ++
      ": Cannot find ';' after '&'"
  | .characterReference fault => "invalid character reference: " ++ fault.message

/-- Why a document is not a tree of elements. -/
inductive Error where
  | malformed (position : Nat) (fault : Fault)
  | mismatchedTag (expected found : String)
  | unexpectedEnd (opened : String)
  | empty
deriving DecidableEq, Repr

def Error.message : Error → String
  | .malformed position fault =>
    "Malformed XML at byte " ++ toString position ++ ": " ++ fault.message
  | .mismatchedTag expected found =>
    "Closing tag '</" ++ found ++ ">' does not match the open element '<" ++ expected ++ ">'"
  | .unexpectedEnd opened => "Document ended while '<" ++ opened ++ ">' was still open"
  | .empty => "Document contains no root element"

end Flowscript.Markup
