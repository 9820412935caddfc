import HostRotation.Text.Code
import HostRotation.Text.Printable

namespace HostRotation.Text

def quotedChar (c : Char) : List Char :=
  match c with
  | '\x00' => ['\\', '0']
  | '\t' => ['\\', 't']
  | '\n' => ['\\', 'n']
  | '\r' => ['\\', 'r']
  | '"' => ['\\', '"']
  | '\\' => ['\\', '\\']
  | c => if isPrintable c then [c] else bracedCode c

def quoted (s : String) : String :=
  String.ofList ('"' :: s.toList.flatMap quotedChar ++ ['"'])

example : quoted "a\"\x1b'é" = "\"a\\\"\\u\x7b1b\x7d'é\"" := by decide +kernel

end HostRotation.Text
