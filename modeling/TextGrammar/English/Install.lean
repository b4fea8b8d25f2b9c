import TextGrammar.English.Article
import TextGrammar.English.Casing
import TextGrammar.English.Plural
import TextGrammar.Modifier

/-!
# The English modifiers

The names under which the English modifiers are registered: `s` and `plural`, `a`, `capitalize` and
`sentence`, `capitalizeAll` and `title`.
-/

namespace TextGrammar

def Modifier.plural : Modifier := ⟨"plural".toList, TextGrammar.plural⟩

def Modifier.article : Modifier := .ofFunction "article".toList withArticle

def Modifier.sentenceCase : Modifier :=
  .ofFunction "sentence_case".toList TextGrammar.sentenceCase

def Modifier.titleCase : Modifier := .ofFunction "title_case".toList TextGrammar.titleCase

/-- A family of English modifiers that is registered together. -/
inductive EnglishFamily where
  | plural
  | article
  | sentenceCase
  | titleCase
deriving DecidableEq

def EnglishFamily.members : EnglishFamily → List (Text × Modifier)
  | plural => [("s".toList, .plural), ("plural".toList, .plural)]
  | article => [("a".toList, .article)]
  | sentenceCase => [("capitalize".toList, .sentenceCase), ("sentence".toList, .sentenceCase)]
  | titleCase => [("capitalizeAll".toList, .titleCase), ("title".toList, .titleCase)]

/-- Every family, in the order in which they are registered. -/
def englishFamilies : List EnglishFamily := [.plural, .article, .sentenceCase, .titleCase]

/-- A registry with families of English modifiers added. -/
def Registry.addEnglish (registry : Registry) (families : List EnglishFamily) : Registry :=
  registry.insertAll (families.flatMap EnglishFamily.members)

end TextGrammar
