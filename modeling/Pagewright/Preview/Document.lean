import Pagewright.Preview.Render

/-!
# Preview documents

A preview is a self-contained HTML document: a fixed style sheet, and the
layout inside one container element.
-/

namespace Pagewright.Preview

/-- The rules of the style sheet. -/
def styleSheet : List String :=
  ["* \x7b box-sizing: border-box; \x7d",
   "body \x7b font-family: ui-sans-serif, system-ui, -apple-system, Segoe UI, Roboto, " ++
     "Helvetica, Arial; margin: 0; padding: 0; background: #fff; color: #111827; \x7d",
   ".container \x7b width: 100%; max-width: none; margin: 0; padding: 0; \x7d",
   ".section \x7b margin: 0; padding: 0; border: 0; \x7d",
   ".row \x7b display: flex; \x7d",
   "h1,h2,h3,p \x7b margin: 0; font-size: inherit; font-weight: inherit; line-height: " ++
     "inherit; \x7d",
   "a \x7b color: inherit; text-decoration: none; \x7d",
   "a.button \x7b display: inline-flex; align-items: center; justify-content: center; \x7d",
   "input \x7b font: inherit; \x7d",
   "img \x7b max-width: 100%; height: auto; display: block; \x7d",
   "pre \x7b white-space: pre-wrap; word-break: break-word; background: #0b1020; color: " ++
     "#e5e7eb; padding: 12px; border-radius: 10px; overflow: auto; \x7d"]

/-- The document up to the body of the container. -/
def documentHead : String :=
  String.intercalate "\n"
    (["<!DOCTYPE html>", "<html lang=\"en\">", "<head>", "  <meta charset=\"UTF-8\">",
      "  <meta name=\"viewport\" content=\"width=device-width, initial-scale=1\">",
      "  <meta name=\"generator\" content=\"blueprint\">", "  <style>"] ++ styleSheet ++
      ["", "  </style>", "</head>", "<body>", "<div class=\"container\">", ""])

/-- The document from the end of the container on. -/
def documentTail : String := "\n</div>\n</body>\n</html>"

/-- The document around a body. -/
def inDocument (body : String) : String := documentHead ++ body ++ documentTail

/-- The preview document of a layout. -/
def document (layout : Layout.Node) : String := inDocument (body layout)

end Pagewright.Preview
