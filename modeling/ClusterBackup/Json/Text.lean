import ClusterBackup.Json.Basic
import ClusterBackup.Numeric.Shortest
import ClusterBackup.Text.Quoted
/-!
# Values in messages

How a value reads inside a message. A text stands for itself; inside a list or an object, texts
are quoted.
-/

namespace ClusterBackup.Json

mutual

def literal : Json → String
  | null => "None"
  | bool b => if b then "True" else "False"
  | int n => toString n
  | float x => x.shortestText
  | str s => Text.quoted s
  | arr items => "[" ++ literalItems items ++ "]"
  | obj members => "\x7b" ++ literalMembers members ++ "\x7d"

def literalItems : List Json → String
  | [] => ""
  | [a] => literal a
  | a :: b :: rest => literal a ++ ", " ++ literalItems (b :: rest)

def literalMembers : List (String × Json) → String
  | [] => ""
  | [(k, a)] => Text.quoted k ++ ": " ++ literal a
  | (k, a) :: b :: rest =>
    Text.quoted k ++ ": " ++ literal a ++ ", " ++ literalMembers (b :: rest)

end

def text : Json → String
  | str s => s
  | j => literal j

@[simp] theorem text_str (s : String) : (str s).text = s := rfl

end ClusterBackup.Json
