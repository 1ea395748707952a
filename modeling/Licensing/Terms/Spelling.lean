/-! # Spelling of terms

Words that are spelled in several ways count as one, and words that say nothing do not count.
-/

namespace Licensing.Terms

/-- British spellings and variants of style, each with the form that it counts as. -/
def spellings : List (String × String) :=
  [("acknowledgment", "acknowledgement"),
   ("analogue", "analog"),
   ("analyse", "analyze"),
   ("artefact", "artifact"),
   ("authorisation", "authorization"),
   ("authorised", "authorized"),
   ("calibre", "caliber"),
   ("cancelled", "canceled"),
   ("apitalisations", "apitalizations"),
   ("catalogue", "catalog"),
   ("categorise", "categorize"),
   ("centre", "center"),
   ("emphasised", "emphasized"),
   ("favour", "favor"),
   ("favourite", "favorite"),
   ("fulfil", "fulfill"),
   ("fulfilment", "fulfillment"),
   ("initialise", "initialize"),
   ("judgment", "judgement"),
   ("labelling", "labeling"),
   ("labour", "labor"),
   ("licence", "license"),
   ("maximise", "maximize"),
   ("modelled", "modeled"),
   ("modelling", "modeling"),
   ("offence", "offense"),
   ("optimise", "optimize"),
   ("organisation", "organization"),
   ("organise", "organize"),
   ("practise", "practice"),
   ("programme", "program"),
   ("realise", "realize"),
   ("recognise", "recognize"),
   ("signalling", "signaling"),
   ("utilisation", "utilization"),
   ("whilst", "while"),
   ("wilful", "wilfull"),
   ("non-ommercial", "noncommercial"),
   ("copyright-owner", "copyright-holder"),
   ("sublicense", "sub-license"),
   ("non-infringement", "noninfringement")]

/-- The form that a word counts as. -/
def respelled (word : String) : String :=
  (spellings.lookup word).getD word

def stopWords : List String :=
  ["the", "version", "software"]

end Licensing.Terms
