import ShareKeeper.Definition

/-!
# Printing the definitions

The command line: the definitions of both kinds as one stream of documents.
-/

def main : IO Unit := do
  for text in ShareKeeper.definitionTexts do
    IO.println "---"
    IO.print text
