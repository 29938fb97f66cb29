namespace PropFlow.Text

-- Whether a word stands somewhere in a text. The empty word stands everywhere.
def occursIn (word : List Char) : List Char → Bool
  | [] => word.isEmpty
  | c :: rest => word.isPrefixOf (c :: rest) || occursIn word rest

def isSubstring (word text : String) : Bool :=
  occursIn word.toList text.toList

end PropFlow.Text
