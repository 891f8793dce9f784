/-!
The words that are known one by one: closed classes, irregular forms, and those that the rules for
endings would take for something else.
-/

namespace Ergo.English.Lexicon

def stopwords : List String := [
  "i", "me", "my", "myself", "we", "our", "ours", "ourselves", "you", "you're", "you've",
  "you'll", "you'd", "your", "yours", "yourself", "yourselves", "he", "him", "his", "himself",
  "she", "she's", "her", "hers", "herself", "it", "it's", "its", "itself", "they", "them",
  "their", "theirs", "themselves", "what", "which", "who", "whom", "this", "that", "that'll",
  "these", "those", "am", "is", "are", "was", "were", "be", "been", "being", "have", "has",
  "had", "having", "do", "does", "did", "doing", "a", "an", "the", "and", "but", "if", "or",
  "because", "as", "until", "while", "of", "at", "by", "for", "with", "about", "against",
  "between", "into", "through", "during", "before", "after", "above", "below", "to", "from",
  "up", "down", "in", "out", "on", "off", "over", "under", "again", "further", "then", "once",
  "here", "there", "when", "where", "why", "how", "all", "any", "both", "each", "few", "more",
  "most", "other", "some", "such", "no", "nor", "not", "only", "own", "same", "so", "than",
  "too", "very", "s", "t", "can", "will", "just", "don", "don't", "should", "should've", "now",
  "d", "ll", "m", "o", "re", "ve", "y", "ain", "aren", "aren't", "couldn", "couldn't", "didn",
  "didn't", "doesn", "doesn't", "hadn", "hadn't", "hasn", "hasn't", "haven", "haven't", "isn",
  "isn't", "ma", "mightn", "mightn't", "mustn", "mustn't", "needn", "needn't", "shan", "shan't",
  "shouldn", "shouldn't", "wasn", "wasn't", "weren", "weren't", "won", "won't", "wouldn",
  "wouldn't"]

def auxiliaries : List String := [
  "can", "could", "will", "would", "shall", "should", "may", "might", "must", "cannot", "can't",
  "couldn't", "won't", "wouldn't", "shouldn't", "mustn't"]

def determiners : List String := [
  "the", "a", "an", "this", "that", "these", "those", "some", "any", "no", "every", "each",
  "all", "either", "neither", "another"]

/-- Prepositions, with `than` and `if`. -/
def prepositions : List String := [
  "in", "on", "at", "to", "for", "with", "by", "from", "of", "about", "into", "through",
  "during", "before", "after", "above", "below", "between", "under", "over", "than", "if"]

/-- Pronouns, with the `there` of existence. -/
def pronouns : List String := [
  "i", "you", "he", "she", "it", "we", "they", "me", "him", "her", "us", "them", "there",
  "something", "someone", "everything", "everyone", "nothing", "nobody", "none"]

/-- Adjectives without an ending that gives them away. -/
def adjectives : List String := [
  "mortal", "immortal", "red", "blue", "green", "black", "white", "happy", "sad", "tall",
  "short", "big", "small", "large", "good", "bad", "wise", "old", "young", "alive", "dead",
  "wet", "dry", "hot", "cold", "true", "false", "greater", "less", "bigger", "smaller", "higher",
  "lower", "related", "connected", "linked", "equal", "smart", "strong", "weak", "rich", "poor",
  "fast", "slow", "rational", "even", "odd", "prime"]

/-- Nouns that end as adjectives or verbs do. -/
def nounsInDisguise : List String := [
  "animal", "human", "individual", "mammal", "element"]

def adverbs : List String := [
  "not", "n't", "never", "very", "also", "too", "always", "often", "just", "only", "still",
  "then", "nowhere"]

/-- Verbs that only follow a noun in the singular. -/
def singularVerbs : List String := [
  "is", "was", "has", "does", "isn't", "wasn't", "doesn't", "hasn't"]

/-- Verb forms, each with the verb it is a form of. -/
def verbForms : List (String × String) := [
  ("is", "be"), ("are", "be"), ("was", "be"), ("were", "be"), ("am", "be"), ("be", "be"),
  ("been", "be"), ("being", "be"), ("isn't", "be"), ("aren't", "be"), ("wasn't", "be"),
  ("weren't", "be"), ("has", "have"), ("have", "have"), ("had", "have"), ("having", "have"),
  ("does", "do"), ("do", "do"), ("did", "do"), ("don't", "do"), ("doesn't", "do"),
  ("didn't", "do"), ("owns", "own"), ("owned", "own"), ("possesses", "possess"),
  ("possess", "possess"), ("possessed", "possess"), ("contains", "contain"),
  ("contain", "contain"), ("includes", "include"), ("include", "include"), ("belongs", "belong"),
  ("belong", "belong"), ("exists", "exist"), ("exist", "exist"), ("fly", "fly"),
  ("flies", "fly"), ("flew", "fly"), ("flown", "fly"), ("swim", "swim"), ("swims", "swim"),
  ("swam", "swim"), ("run", "run"), ("runs", "run"), ("ran", "run"), ("walk", "walk"),
  ("walks", "walk"), ("eat", "eat"), ("eats", "eat"), ("ate", "eat"), ("sing", "sing"),
  ("sings", "sing"), ("sang", "sing"), ("love", "love"), ("loves", "love"), ("loved", "love"),
  ("like", "like"), ("likes", "like"), ("know", "know"), ("knows", "know"), ("knew", "know"),
  ("think", "think"), ("thinks", "think"), ("breathe", "breathe"), ("breathes", "breathe"),
  ("live", "live"), ("lives", "live"), ("lived", "live"), ("die", "die"), ("dies", "die"),
  ("died", "die"), ("make", "make"), ("makes", "make"), ("made", "make"), ("cause", "cause"),
  ("causes", "cause"), ("become", "become"), ("becomes", "become"), ("became", "become"),
  ("teach", "teach"), ("teaches", "teach"), ("taught", "teach"), ("bark", "bark"),
  ("barks", "bark"), ("chase", "chase"), ("chases", "chase"), ("hunt", "hunt"),
  ("hunts", "hunt"), ("read", "read"), ("reads", "read"), ("write", "write"),
  ("writes", "write"), ("wrote", "write")]

def irregularPlurals : List (String × String) := [
  ("men", "man"), ("women", "woman"), ("children", "child"), ("people", "person"),
  ("mice", "mouse"), ("geese", "goose"), ("feet", "foot"), ("teeth", "tooth"),
  ("wolves", "wolf"), ("leaves", "leaf")]

def conjunctions : List String := [
  "and", "or", "but", "nor"]

def isStopword (word : String) : Bool :=
  stopwords.contains word

end Ergo.English.Lexicon
