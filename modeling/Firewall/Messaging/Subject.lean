/-
# Subjects

A subject is a list of tokens divided by points.  The updates of a rule group have a subject of their
own, below a common root.

* `Messaging.subjectToken` : a text as one token;
* `Messaging.subjectFor` : the subject for a rule group.
-/

namespace Firewall

namespace Messaging

/-- Whether a character may stand in a token as it is: letters and digits of ASCII, the hyphen and the
underscore. -/
def isTokenChar (c : Char) : Bool := c.isAlphanum || c = '-' || c = '_'

/-- A text as one token, with an underscore for every other character. -/
def subjectToken (s : String) : String :=
  String.ofList (s.toList.map fun c => if isTokenChar c then c else '_')

/-- The subject for the updates of a rule group. -/
def subjectFor (root ruleGroupArn : String) : String := root ++ "." ++ subjectToken ruleGroupArn

/-- A token holds no other characters. -/
theorem isTokenChar_of_mem_subjectToken {s : String} {c : Char}
    (h : c ∈ (subjectToken s).toList) : isTokenChar c = true := by
  simp only [subjectToken, String.toList_ofList, List.mem_map] at h
  obtain ⟨d, -, rfl⟩ := h
  split
  · next hd => exact hd
  · rfl

end Messaging

end Firewall
