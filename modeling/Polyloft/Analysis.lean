import Polyloft.Catalog
import Polyloft.Declaration.Collect

/-!
# Polyloft.Analysis

One version of one document, analysed: its lines, its scopes, what it declares, and the catalog of
what the language provides. Rules and queries work from this and from nothing else.
-/

namespace Polyloft

/-- An analysed document. -/
structure Analysis where
  document : Document
  tree : ScopeTree
  table : DeclarationTable
  catalog : Catalog

namespace Analysis

/-- Analyses a document. -/
def ofDocument (document : Document) (catalog : Catalog) : Analysis :=
  let tree := ScopeTree.build document
  { document, tree, table := DeclarationTable.collect document tree, catalog }

/-- Analyses a text, known by the name `uri`. -/
def ofText (text : List Char) (uri : Option String) (catalog : Catalog) : Analysis :=
  ofDocument (Document.ofText text uri) catalog

/-- The declaration of a name that is meant on a line. -/
def visible? (a : Analysis) (name : String) (line : Int) : Option Declaration :=
  a.table.visible? name line a.tree

end Analysis

end Polyloft
