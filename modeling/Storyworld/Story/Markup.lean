import Storyworld.Text.Replace

/-! The HTML fragments of which outputs are made. Text is escaped wherever it is put into one. -/

namespace Storyworld.Story

def escapedChar (c : Char) : List Char :=
  if c = '&' then "&amp;".toList
  else if c = '<' then "&lt;".toList
  else if c = '>' then "&gt;".toList
  else if c = '"' then "&quot;".toList
  else if c = '\'' then "&#39;".toList
  else [c]

def escape (s : String) : String :=
  String.ofList (s.toList.flatMap escapedChar)

def unescape (s : String) : String :=
  Text.replaceAll "&amp;" "&" (Text.replaceAll "&#39;" "'" (Text.replaceAll "&quot;" "\""
    (Text.replaceAll "&gt;" ">" (Text.replaceAll "&lt;" "<" s))))

def paragraph (html : String) : String :=
  "<p>" ++ html ++ "</p>"

def actionLink (action param label : String) : String :=
  "<a class=\"game-action\" data-action=\"" ++ escape action ++ "\" data-param=\"" ++
    escape param ++ "\">" ++ escape label ++ "</a>"

/-- A list of fragments; nothing for none. -/
def bulletList (items : List String) : String :=
  if items.isEmpty then ""
  else "<ul>" ++ String.join (items.map fun item => "<li>" ++ item ++ "</li>") ++ "</ul>"

end Storyworld.Story
