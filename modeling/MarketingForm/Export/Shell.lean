/-!
# The built-in shell

The page that documents are composed into unless a shell file is given.
-/

namespace MarketingForm

/-- The lines of the built-in shell. -/
def builtInShellLines : List String := [
  "<!DOCTYPE html>",
  "<html>",
  "<head>",
  "  <meta charset=\"utf-8\">",
  "  <meta name=\"viewport\" content=\"width=device-width, initial-scale=1\">",
  "  <meta name=\"referrer\" content=\"never\">",
  "  <meta type=\"xrm/designer/setting\" name=\"type\" value=\"marketing-designer-content-editor-document\">",
  "  <meta type=\"xrm/designer/setting\" name=\"layout-editable\" value=\"marketing-designer-layout-editable\">",
  "  <title>\x7b\x7bFORM_TITLE\x7d\x7d</title>",
  "  <style>",
  "    :root \x7b",
  "\x7b\x7bDESIGN_TOKENS\x7d\x7d    \x7d",
  "",
  "    body \x7b",
  "      margin: 0;",
  "      font-family: var(--font-family, \"Segoe UI\", Arial, sans-serif);",
  "      color: var(--text-color, #323130);",
  "    \x7d",
  "",
  "    .marketingForm \x7b",
  "      max-width: 600px;",
  "      margin: 0 auto;",
  "    \x7d",
  "",
  "    .marketingForm label \x7b",
  "      display: block;",
  "      margin: 10px 10px 4px;",
  "      font-size: var(--label-font-size, 14px);",
  "    \x7d",
  "",
  "    .marketingForm input:not([type=checkbox]):not([type=radio]),",
  "    .marketingForm textarea,",
  "    .marketingForm select \x7b",
  "      box-sizing: border-box;",
  "      width: calc(100% - 20px);",
  "      margin: 0 10px 10px;",
  "      padding: 8px;",
  "      border: 1px solid var(--border-color, #8a8886);",
  "      border-radius: var(--border-radius, 2px);",
  "    \x7d",
  "",
  "    .marketingForm .submitButton \x7b",
  "      margin: 20px 10px;",
  "      padding: 10px 24px;",
  "      border: none;",
  "      border-radius: var(--border-radius, 2px);",
  "      background-color: var(--primary-color, #0078d4);",
  "      color: var(--button-text-color, #ffffff);",
  "      cursor: pointer;",
  "    \x7d",
  "  </style>",
  "</head>",
  "<body>",
  "  <main class=\"marketingForm\">",
  "\x7b\x7bFORM_CONTENT\x7d\x7d  </main>",
  "</body>",
  "</html>"]

/-- The built-in shell. -/
def builtInShell : String := String.join (builtInShellLines.map fun l => l ++ "\n")

end MarketingForm
