/-!
# Classes of nouns

Lists of nouns, and of endings of nouns, that have plurals of their own. A noun that has a modern
and a classical plural has both with a bar between them.

## Main definitions

* `irregularNouns`, `capitalNouns`, `personalPronouns` — words with a plural of their own.
* `unchangedNouns`, `unchangedEndings` — nouns that are the same in the plural.
* `singularNounsInS`, `singularEndingsInS` — nouns in `s` that are in the singular.
* `pluralNounsInS`, `pluralEndingsInS` — nouns in `s` that are in the plural already.
* `nounsInOs` — endings in `o` that take `s` alone.
* `prepositions` — the words that stand inside a compound.
-/

namespace TextGrammar

/-- Nouns in `s` with a plural of their own. -/
def irregularNounsInS : List (String × String) := [
  ("corpus", "corpuses|corpora"), ("opus", "opuses|opera"), ("genus", "genera"),
  ("mythos", "mythoi"), ("penis", "penises|penes"), ("testis", "testes"),
  ("atlas", "atlases|atlantes"), ("yes", "yeses")]

def irregularNouns : List (String × String) := irregularNounsInS ++ [
  ("child", "children"), ("chili", "chilis|chilies"), ("brother", "brothers|brethren"),
  ("infinity", "infinities|infinity"), ("loaf", "loaves"), ("lore", "lores|lore"),
  ("hoof", "hoofs|hooves"), ("beef", "beefs|beeves"), ("thief", "thiefs|thieves"),
  ("money", "monies"), ("mongoose", "mongooses"), ("ox", "oxen"), ("cow", "cows|kine"),
  ("graffito", "graffiti"), ("octopus", "octopuses|octopodes"), ("genie", "genies|genii"),
  ("ganglion", "ganglions|ganglia"), ("trilby", "trilbys"), ("turf", "turfs|turves"),
  ("numen", "numina"), ("atman", "atmas"), ("occiput", "occiputs|occipita"),
  ("sabretooth", "sabretooths"), ("sabertooth", "sabertooths"), ("lowlife", "lowlifes"),
  ("flatfoot", "flatfoots"), ("tenderfoot", "tenderfoots"), ("romany", "romanies"),
  ("jerry", "jerries"), ("mary", "maries"), ("talouse", "talouses"), ("rom", "roma"),
  ("carmen", "carmina")]

/-- Names with a plural of their own. -/
def capitalNouns : List (String × String) := [
  ("Romany", "Romanies"), ("Jerry", "Jerrys"), ("Mary", "Marys"), ("Rom", "Roma")]

def irregularPairs : List (String × String) := [("prima donna", "prima donnas|prime donne")]

def personalPronouns : List (String × String) := [
  ("i", "we"), ("myself", "ourselves"), ("you", "you"), ("yourself", "yourselves"),
  ("she", "they"), ("herself", "themselves"), ("he", "they"), ("himself", "themselves"),
  ("it", "they"), ("itself", "themselves"), ("they", "they"), ("themself", "themselves"),
  ("mine", "ours"), ("yours", "yours"), ("hers", "theirs"), ("his", "theirs"),
  ("its", "theirs"), ("theirs", "theirs"), ("me", "us"), ("him", "them"), ("her", "them"),
  ("them", "them")]

/-- Nouns in `s` that are in the plural already: pairs, groups, diseases and borrowed words. -/
def pluralNounsInS : List String := [
  "breeches", "britches", "pajamas", "pyjamas", "clippers", "gallows", "hijinks",
  "headquarters", "pliers", "scissors", "testes", "herpes", "pincers", "shears",
  "proceedings", "trousers", "cantus", "coitus", "nexus", "contretemps", "corps", "debris",
  "siemens", "mumps", "diabetes", "jackanapes", "series", "species", "subspecies", "rabies",
  "chassis", "innings", "news", "mews", "haggis"]

/-- Endings in `s` of nouns that are in the plural already. -/
def pluralEndingsInS : List String := ["ois", "measles"]

def unchangedNouns : List String := [
  "tuna", "salmon", "mackerel", "trout", "bream", "sea-bass", "carp", "cod", "flounder",
  "whiting", "moose", "graffiti", "djinn", "samuri", "offspring", "pence", "quid", "hertz"]
  ++ pluralNounsInS

def unchangedNames : List String := [
  "Portuguese", "Amoyese", "Borghese", "Congoese", "Faroese", "Foochowese", "Genevese",
  "Genoese", "Gilbertese", "Hottentotese", "Kiplingese", "Kongoese", "Lucchese", "Maltese",
  "Nankingese", "Niasese", "Pekingese", "Piedmontese", "Pistoiese", "Sarawakese", "Shavese",
  "Vermontese", "Wenchowese", "Yengeese"]

def unchangedEndings : List String := [
  "butter", "cash", "furniture", "information", "fish", "deer", "sheep", "nese", "rese",
  "lese", "mese", "pox", "craft"] ++ pluralEndingsInS

/-- Nouns in `s` that are in the singular. -/
def singularNounsInS : List String := [
  "acropolis", "aegis", "alias", "asbestos", "bathos", "bias", "bronchitis", "bursitis",
  "caddis", "cannabis", "canvas", "chaos", "christmas", "cosmos", "dais", "digitalis",
  "epidermis", "ethos", "eyas", "gas", "glottis", "hubris", "ibis", "lens", "mantis",
  "marquis", "metropolis", "pathos", "pelvis", "polis", "rhinoceros", "sassafras", "trellis",
  "ephemeris", "iris", "clitoris", "chrysalis", "epididymis"]

/-- Endings in `s` of nouns that are in the singular. -/
def singularEndingsInS : List String := ["ss", "us", "itis"]

/-- Endings of nouns in `man` that have nothing to do with a man. -/
def nounsInMans : List String := [
  "ataman", "caiman", "cayman", "ceriman", "desman", "dolman", "farman", "harman", "hetman",
  "human", "leman", "ottoman", "shaman", "talisman"]

/-- Endings of names of peoples in `man`. -/
def namesInMans : List String := [
  "Alabaman", "Bahaman", "Burman", "German", "Hiroshiman", "Liman", "Nakayaman", "Norman",
  "Oklahoman", "Panaman", "Roman", "Selman", "Sonaman", "Tacoman", "Yakiman", "Yokohaman",
  "Yuman"]

def nounsInLice : List String := ["booklouse", "grapelouse", "louse", "woodlouse"]

/-- Nouns in `o` that take `s` alone. -/
def shortNounsInOs : List String := ["ado", "oto"]

/-- Endings in `o` of nouns that take `s` alone. -/
def nounsInOs : List String := [
  "aficionado", "aggro", "albino", "allegro", "ammo", "archipelago", "armadillo", "auto",
  "avocado", "bimbo", "bingo", "bolero", "bongo", "burro", "canto", "cappuccino", "casino",
  "cello", "cilantro", "cochito", "coco", "commando", "concertino", "contango", "credo",
  "crescendo", "cyano", "demo", "ditto", "dynamo", "embryo", "espresso", "euro", "falsetto",
  "fiasco", "flamenco", "furioso", "generalissimo", "ghetto", "gigolo", "gizmo", "gringo",
  "guano", "gumbo", "gyro", "hairdo", "hippo", "impetigo", "inferno", "info", "intermezzo",
  "intertrigo", "jumbo", "junto", "kilo", "libero", "libido", "libretto", "lido", "limbo",
  "limo", "lineno", "lingo", "lino", "livedo", "loco", "logo", "lumbago", "macho", "macro",
  "mafioso", "magneto", "magnifico", "manifesto", "medico", "memo", "metro", "micro", "mono",
  "myo", "neutrino", "octavo", "oregano", "panto", "pedalo", "photo", "pimento", "pinto",
  "pleco", "pogo", "polo", "poncho", "pro", "psycho", "pueblo", "quarto", "repo", "rhino",
  "risotto", "rococo", "rondo", "saddo", "sago", "salvo", "scherzando", "scherzo", "silo",
  "sirocco", "sombrero", "staccato", "sterno", "stucco", "stylo", "sumo", "techno",
  "terrazzo", "testudo", "timpano", "tiro", "tobacco", "torero", "torso", "tremolo", "typo",
  "tyro", "ufo", "vaquero", "vermicello", "verso", "vibrato", "violoncello", "weirdo",
  "yo-yo", "zero", "solo", "soprano", "basso", "alto", "contralto", "tempo", "piano",
  "virtuoso"]

/-- The words that can stand between hyphens inside a compound. -/
def prepositions : List String := [
  "about", "above", "across", "after", "among", "around", "at", "athwart", "before", "behind",
  "below", "beneath", "beside", "besides", "between", "betwixt", "beyond", "but", "by",
  "during", "except", "for", "from", "in", "into", "near", "of", "off", "on", "onto", "out",
  "over", "since", "till", "to", "under", "until", "unto", "upon", "with", "de", "du", "da"]

end TextGrammar
