/-! Tokens: the words, operators and brackets of a program, each with the text it was written with. -/
namespace Scriptlet

inductive Kind
  | int | string
  | plus | minus | asterisk | slash | assign | neg | lt | gt | eq | neq | lteq | gteq | increment | decrement
  | lparen | rparen | lsquare | rsquare | lbrace | rbrace | comma
  | identifier | letWord | fnWord | ifWord | elseWord | trueWord | falseWord | returnWord | whileWord
  | eof | illegal
deriving DecidableEq, Repr

namespace Kind

def name : Kind → String
  | int => "INT"
  | string => "STRING"
  | plus => "PLUS"
  | minus => "MINUS"
  | asterisk => "ASTERISK"
  | slash => "SLASH"
  | assign => "ASSIGN"
  | neg => "NEG"
  | lt => "LT"
  | gt => "GT"
  | eq => "EQ"
  | neq => "NEQ"
  | lteq => "LTEQ"
  | gteq => "GTEQ"
  | increment => "INCREMENT"
  | decrement => "DECREMENT"
  | lparen => "LPAREN"
  | rparen => "RPAREN"
  | lsquare => "LSQUARE"
  | rsquare => "RSQUARE"
  | lbrace => "LBRACE"
  | rbrace => "RBRACE"
  | comma => "COMMA"
  | identifier => "IDENTIFIER"
  | letWord => "LET"
  | fnWord => "FUNCTION"
  | ifWord => "IF"
  | elseWord => "ELSE"
  | trueWord => "TRUE"
  | falseWord => "FALSE"
  | returnWord => "RETURN"
  | whileWord => "WHILE"
  | eof => "EOF"
  | illegal => "ILLEGAL"

def keywords : List (String × Kind) :=
  [("let", letWord), ("fn", fnWord), ("if", ifWord), ("else", elseWord), ("true", trueWord), ("false", falseWord),
   ("return", returnWord), ("while", whileWord)]

def ofWord (word : String) : Kind := (keywords.lookup word).getD identifier

def ofSymbol? : Char → Option Kind
  | '*' => some asterisk
  | '/' => some slash
  | '(' => some lparen
  | ')' => some rparen
  | '[' => some lsquare
  | ']' => some rsquare
  | '\x7b' => some lbrace
  | '\x7d' => some rbrace
  | ',' => some comma
  | _ => none

/-- A symbol that a second character may extend: its kind alone, that character, the kind of both. -/
structure Extension where
  alone : Kind
  second : Char
  both : Kind
deriving DecidableEq, Repr

def extension? : Char → Option Extension
  | '+' => some ⟨plus, '+', increment⟩
  | '-' => some ⟨minus, '-', decrement⟩
  | '=' => some ⟨assign, '=', eq⟩
  | '!' => some ⟨neg, '=', neq⟩
  | '<' => some ⟨lt, '=', lteq⟩
  | '>' => some ⟨gt, '=', gteq⟩
  | _ => none

end Kind

/-- A token is a kind with the text it stands for; a string's text leaves out the quotes. -/
structure Token where
  kind : Kind
  lexeme : String
deriving DecidableEq, Repr

namespace Token

/-- Stands for the end of the input wherever a token is asked for after the last one. -/
def eof : Token := ⟨.eof, ""⟩

def text (t : Token) : String := "(" ++ t.kind.name ++ ", '" ++ t.lexeme ++ "')"

end Token
end Scriptlet
