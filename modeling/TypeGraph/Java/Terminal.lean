/-! The terminal symbols of the Java grammar and the spellings of those with only one. -/

namespace TypeGraph.Java

/-- A terminal symbol: a class of lexemes, or a word or mark with one spelling. -/
inductive Terminal where
  -- Names, literals and comments, with the quotes that enclose text.
  | identifier | decimalInteger | hexInteger | octalInteger | binaryInteger | decimalFloat
  | hexFloat | trueWord | falseWord | characterLiteral | quote | tripleQuote | stringFragment
  | textFragment | quotedTextFragment | interpolationOpen | textEscape | escapeSequence | nullWord
  | lineComment | blockComment
  -- Marks.
  | rightBrace | leftParen | rightParen | ampersand | assign | plusAssign | minusAssign
  | timesAssign | divideAssign | andAssign | orAssign | xorAssign | remainderAssign
  | shiftLeftAssign | shiftRightAssign | unsignedShiftAssign | greater | less | greaterEqual
  | lessEqual | equal | notEqual | logicalAnd | logicalOr | plus | minus | times | slash | bar
  | caret | percent | shiftLeft | shiftRight | unsignedShift | arrow | comma | question | colon
  | bang | tilde | increment | decrement | leftBracket | rightBracket | dot | doubleColon
  | leftBrace | semicolon | atSign | nonSealed | atInterface | ellipsis
  -- Words that the grammar spells out.
  | instanceofWord | finalWord | newWord | classWord | extendsWord | switchWord | caseWord
  | defaultWord | underscore | whenWord | assertWord | doWord | whileWord | breakWord
  | continueWord | returnWord | yieldWord | synchronizedWord | throwWord | tryWord | catchWord
  | finallyWord | ifWord | elseWord | forWord | openWord | moduleWord | requiresWord
  | transitiveWord | staticWord | exportsWord | toWord | opensWord | usesWord | providesWord
  | withWord | packageWord | importWord | enumWord | publicWord | protectedWord | privateWord
  | abstractWord | strictfpWord | nativeWord | transientWord | volatileWord | sealedWord
  | implementsWord | permitsWord | recordWord | interfaceWord | byteWord | shortWord | intWord
  | longWord | charWord | floatWord | doubleWord | booleanWord | voidWord | throwsWord | thisWord
  | superWord
  -- The place after the last lexeme.
  | endOfText
deriving DecidableEq, Repr

namespace Terminal

/-- Every terminal, in the order of declaration. -/
def all : List Terminal :=
  [.identifier, .decimalInteger, .hexInteger, .octalInteger, .binaryInteger, .decimalFloat,
   .hexFloat, .trueWord, .falseWord, .characterLiteral, .quote, .tripleQuote, .stringFragment,
   .textFragment, .quotedTextFragment, .interpolationOpen, .textEscape, .escapeSequence,
   .nullWord, .lineComment, .blockComment, .rightBrace, .leftParen, .rightParen, .ampersand,
   .assign, .plusAssign, .minusAssign, .timesAssign, .divideAssign, .andAssign, .orAssign,
   .xorAssign, .remainderAssign, .shiftLeftAssign, .shiftRightAssign, .unsignedShiftAssign,
   .greater, .less, .greaterEqual, .lessEqual, .equal, .notEqual, .logicalAnd, .logicalOr, .plus,
   .minus, .times, .slash, .bar, .caret, .percent, .shiftLeft, .shiftRight, .unsignedShift, .arrow,
   .comma, .question, .colon, .bang, .tilde, .increment, .decrement, .leftBracket, .rightBracket,
   .dot, .doubleColon, .leftBrace, .semicolon, .atSign, .nonSealed, .atInterface, .ellipsis,
   .instanceofWord, .finalWord, .newWord, .classWord, .extendsWord, .switchWord, .caseWord,
   .defaultWord, .underscore, .whenWord, .assertWord, .doWord, .whileWord, .breakWord,
   .continueWord, .returnWord, .yieldWord, .synchronizedWord, .throwWord, .tryWord, .catchWord,
   .finallyWord, .ifWord, .elseWord, .forWord, .openWord, .moduleWord, .requiresWord,
   .transitiveWord, .staticWord, .exportsWord, .toWord, .opensWord, .usesWord, .providesWord,
   .withWord, .packageWord, .importWord, .enumWord, .publicWord, .protectedWord, .privateWord,
   .abstractWord, .strictfpWord, .nativeWord, .transientWord, .volatileWord, .sealedWord,
   .implementsWord, .permitsWord, .recordWord, .interfaceWord, .byteWord, .shortWord, .intWord,
   .longWord, .charWord, .floatWord, .doubleWord, .booleanWord, .voidWord, .throwsWord, .thisWord,
   .superWord, .endOfText]

/-- The position of a terminal in the list of all. -/
def index (t : Terminal) : Nat := t.ctorIdx

/-- The spelling of a terminal that has only one. -/
def spelling? : Terminal → Option String
  | trueWord => some "true"
  | falseWord => some "false"
  | quote => some "\""
  | tripleQuote => some "\"\"\""
  | interpolationOpen => some "\\\x7b"
  | nullWord => some "null"
  | rightBrace => some "\x7d"
  | leftParen => some "("
  | rightParen => some ")"
  | ampersand => some "&"
  | assign => some "="
  | plusAssign => some "+="
  | minusAssign => some "-="
  | timesAssign => some "*="
  | divideAssign => some "/="
  | andAssign => some "&="
  | orAssign => some "|="
  | xorAssign => some "^="
  | remainderAssign => some "%="
  | shiftLeftAssign => some "<<="
  | shiftRightAssign => some ">>="
  | unsignedShiftAssign => some ">>>="
  | greater => some ">"
  | less => some "<"
  | greaterEqual => some ">="
  | lessEqual => some "<="
  | equal => some "=="
  | notEqual => some "!="
  | logicalAnd => some "&&"
  | logicalOr => some "||"
  | plus => some "+"
  | minus => some "-"
  | times => some "*"
  | slash => some "/"
  | bar => some "|"
  | caret => some "^"
  | percent => some "%"
  | shiftLeft => some "<<"
  | shiftRight => some ">>"
  | unsignedShift => some ">>>"
  | arrow => some "->"
  | comma => some ","
  | question => some "?"
  | colon => some ":"
  | bang => some "!"
  | tilde => some "~"
  | increment => some "++"
  | decrement => some "--"
  | leftBracket => some "["
  | rightBracket => some "]"
  | dot => some "."
  | doubleColon => some "::"
  | leftBrace => some "\x7b"
  | semicolon => some ";"
  | atSign => some "@"
  | nonSealed => some "non-sealed"
  | atInterface => some "@interface"
  | ellipsis => some "..."
  | instanceofWord => some "instanceof"
  | finalWord => some "final"
  | newWord => some "new"
  | classWord => some "class"
  | extendsWord => some "extends"
  | switchWord => some "switch"
  | caseWord => some "case"
  | defaultWord => some "default"
  | underscore => some "_"
  | whenWord => some "when"
  | assertWord => some "assert"
  | doWord => some "do"
  | whileWord => some "while"
  | breakWord => some "break"
  | continueWord => some "continue"
  | returnWord => some "return"
  | yieldWord => some "yield"
  | synchronizedWord => some "synchronized"
  | throwWord => some "throw"
  | tryWord => some "try"
  | catchWord => some "catch"
  | finallyWord => some "finally"
  | ifWord => some "if"
  | elseWord => some "else"
  | forWord => some "for"
  | openWord => some "open"
  | moduleWord => some "module"
  | requiresWord => some "requires"
  | transitiveWord => some "transitive"
  | staticWord => some "static"
  | exportsWord => some "exports"
  | toWord => some "to"
  | opensWord => some "opens"
  | usesWord => some "uses"
  | providesWord => some "provides"
  | withWord => some "with"
  | packageWord => some "package"
  | importWord => some "import"
  | enumWord => some "enum"
  | publicWord => some "public"
  | protectedWord => some "protected"
  | privateWord => some "private"
  | abstractWord => some "abstract"
  | strictfpWord => some "strictfp"
  | nativeWord => some "native"
  | transientWord => some "transient"
  | volatileWord => some "volatile"
  | sealedWord => some "sealed"
  | implementsWord => some "implements"
  | permitsWord => some "permits"
  | recordWord => some "record"
  | interfaceWord => some "interface"
  | byteWord => some "byte"
  | shortWord => some "short"
  | intWord => some "int"
  | longWord => some "long"
  | charWord => some "char"
  | floatWord => some "float"
  | doubleWord => some "double"
  | booleanWord => some "boolean"
  | voidWord => some "void"
  | throwsWord => some "throws"
  | thisWord => some "this"
  | superWord => some "super"
  | _ => none

/-- The words that are spelled like names. -/
def words : List Terminal :=
  [.trueWord, .falseWord, .nullWord, .instanceofWord, .finalWord, .newWord, .classWord,
   .extendsWord, .switchWord, .caseWord, .defaultWord, .underscore, .whenWord, .assertWord,
   .doWord, .whileWord, .breakWord, .continueWord, .returnWord, .yieldWord, .synchronizedWord,
   .throwWord, .tryWord, .catchWord, .finallyWord, .ifWord, .elseWord, .forWord, .openWord,
   .moduleWord, .requiresWord, .transitiveWord, .staticWord, .exportsWord, .toWord, .opensWord,
   .usesWord, .providesWord, .withWord, .packageWord, .importWord, .enumWord, .publicWord,
   .protectedWord, .privateWord, .abstractWord, .strictfpWord, .nativeWord, .transientWord,
   .volatileWord, .sealedWord, .implementsWord, .permitsWord, .recordWord, .interfaceWord,
   .byteWord, .shortWord, .intWord, .longWord, .charWord, .floatWord, .doubleWord, .booleanWord,
   .voidWord, .throwsWord, .thisWord, .superWord]

/-- Whether a lexeme is a named part of its rule, unlike marks and plain words. -/
def isNamed : Terminal → Bool
  | .identifier | .decimalInteger | .hexInteger | .octalInteger | .binaryInteger | .decimalFloat
  | .hexFloat | .trueWord | .falseWord | .characterLiteral | .stringFragment | .escapeSequence
  | .nullWord | .lineComment | .blockComment | .underscore | .booleanWord | .voidWord
  | .thisWord | .superWord => true
  | _ => false

/-- Comments, which may stand between any two lexemes. -/
def isComment : Terminal → Bool
  | .lineComment | .blockComment => true
  | _ => false

/-- The name of a terminal in messages. -/
def name : Terminal → String
  | .identifier => "identifier"
  | .decimalInteger => "decimal_integer_literal"
  | .hexInteger => "hex_integer_literal"
  | .octalInteger => "octal_integer_literal"
  | .binaryInteger => "binary_integer_literal"
  | .decimalFloat => "decimal_floating_point_literal"
  | .hexFloat => "hex_floating_point_literal"
  | .trueWord => "true"
  | .falseWord => "false"
  | .characterLiteral => "character_literal"
  | .stringFragment => "string_fragment"
  | .textFragment => "multiline_string_fragment_token1"
  | .quotedTextFragment => "multiline_string_fragment_token2"
  | .textEscape => "escape_sequence_token1"
  | .escapeSequence => "escape_sequence"
  | .nullWord => "null_literal"
  | .underscore => "underscore_pattern"
  | .booleanWord => "boolean_type"
  | .voidWord => "void_type"
  | .thisWord => "this"
  | .superWord => "super"
  | .lineComment => "line_comment"
  | .blockComment => "block_comment"
  | .endOfText => "end"
  | t => t.spelling?.getD ""

end Terminal

end TypeGraph.Java
