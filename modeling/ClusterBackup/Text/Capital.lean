/-!
# Capitals within the Latin alphabet

The capital form of a text, for use where only capitals of the basic Latin alphabet matter: a
character whose capital form lies outside that alphabet is left as it is.
-/

namespace ClusterBackup.Text

/-- The capital form of one character. Besides the small letters a to z these are the dotless i,
the long s, the sharp s and the joined letters. -/
def capitalForm (c : Char) : List Char :=
  match c with
  | 'ı' => ['I']
  | 'ſ' => ['S']
  | 'ß' => ['S', 'S']
  | 'ﬀ' => ['F', 'F']
  | 'ﬁ' => ['F', 'I']
  | 'ﬂ' => ['F', 'L']
  | 'ﬃ' => ['F', 'F', 'I']
  | 'ﬄ' => ['F', 'F', 'L']
  | 'ﬅ' => ['S', 'T']
  | 'ﬆ' => ['S', 'T']
  | c => [c.toUpper]

def capitals (cs : List Char) : List Char := cs.flatMap capitalForm

end ClusterBackup.Text
