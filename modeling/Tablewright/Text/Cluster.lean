import Tablewright.Text.ClusterTable

/-! User-perceived characters. A mark belongs to the letter before it, so a letter with its marks
has one case. Only the joins that case and digits can observe are made: those inside syllable
blocks, flags and pictures connect characters that have neither. -/

namespace Tablewright.Text

namespace Cluster

def isAttaching (c : Char) : Bool := !isAscii c && ClusterTable.attaching.contains c

def isLeading (c : Char) : Bool := !isAscii c && ClusterTable.leading.contains c

def isStandalone (c : Char) : Bool :=
  if isAscii c then c.toNat < 0x20 || c.toNat == 0x7F else ClusterTable.standalone.contains c

/-- Whether two neighbours belong to the same cluster. -/
def joins (a b : Char) : Bool :=
  (isAttaching b && !isStandalone a) || (isLeading a && !isStandalone b)

end Cluster

/-- The clusters of a text, in order. -/
def clusters (cs : List Char) : List (List Char) := cs.splitBy Cluster.joins

end Tablewright.Text
