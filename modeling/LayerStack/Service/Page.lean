import LayerStack.Palette.Language

/-! The page of the service. -/

namespace LayerStack.Service

/-- A character in the text or in an attribute of a page. -/
def escapeMarkup (c : Char) : List Char :=
  if c = '&' then "&amp;".toList
  else if c = '<' then "&lt;".toList
  else if c = '>' then "&gt;".toList
  else if c = '\x27' then "&#39;".toList
  else if c = '\x22' then "&#34;".toList
  else [c]

def markupText (s : String) : String := String.ofList (s.toList.flatMap escapeMarkup)

/-- The line of the page for a language that can be chosen. -/
def languageItem (language : Language) : String :=
  "        <li>" ++ markupText language.flag ++ " " ++ markupText language.label ++ "</li>"

def page (language : String) (dark : Bool) : String :=
  String.intercalate "\n" ([
    "<!DOCTYPE html>",
    "<html lang=\"" ++ markupText language ++ "\">",
    "<head>",
    "    <meta charset=\"utf-8\">",
    "    <meta name=\"viewport\" content=\"width=device-width, initial-scale=1\">",
    "    <title>LayerCal</title>",
    "</head>",
    "<body class=\"" ++ (if dark then "dark" else "light") ++ "\">",
    "    <h1>LayerCal</h1>",
    "    <p>Deep learning model parameter calculator.</p>",
    "    <ul>",
    "        "] ++
    Language.all.flatMap (fun language => [languageItem language, "        "]) ++ [
    "    </ul>",
    "    <h2>API</h2>",
    "    <ul>",
    "        <li><code>GET /api/layer-types</code></li>",
    "        <li><code>GET|POST /api/settings</code></li>",
    "        <li><code>POST /api/calculate</code></li>",
    "        <li><code>POST /api/groups</code></li>",
    "        <li><code>POST /api/code</code></li>",
    "        <li><code>POST /api/export</code></li>",
    "    </ul>",
    "</body>",
    "</html>"])

end LayerStack.Service
