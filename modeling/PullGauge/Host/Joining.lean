import PullGauge.Host.Direction
import PullGauge.Text.Composed

/-!
# Joiners

Letters of some scripts join their neighbours. A joiner without width is at home behind
the sign that silences a vowel; the one that parts letters is also at home between two
letters that would join. Marks do not keep letters apart.
-/

namespace PullGauge.Host

open Text (Range inRanges)

def joiningRanges : List Range := [
  (1568, 1568), (1574, 1574), (1576, 1576), (1578, 1582), (1587, 1607), (1609, 1610), (1646, 1647),
  (1657, 1671), (1690, 1727), (1729, 1730), (1740, 1740), (1742, 1742), (1744, 1745), (1786, 1788),
  (1791, 1791), (1810, 1812), (1818, 1821), (1823, 1831), (1833, 1833), (1835, 1835), (1837, 1838),
  (1870, 1880), (1884, 1898), (1901, 1904), (1906, 1906), (1909, 1911), (1914, 1919), (1994, 2026),
  (2113, 2117), (2120, 2120), (2122, 2131), (2133, 2133), (2144, 2144), (2146, 2149), (2152, 2152),
  (2182, 2182), (2185, 2189), (2208, 2217), (2223, 2224), (2227, 2232), (2234, 2248), (6176, 6264),
  (6279, 6312), (6314, 6314), (43072, 43121), (68288, 68292), (68307, 68310), (68312, 68316),
  (68318, 68320), (68480, 68480), (68482, 68482), (68486, 68488), (68490, 68491), (68493, 68493),
  (68496, 68496), (68865, 68897), (68899, 68899), (69424, 69426), (69428, 69444), (69488, 69491),
  (69494, 69505), (69552, 69552), (69554, 69555), (69560, 69560), (69563, 69564), (69566, 69567),
  (69569, 69569), (69572, 69572), (125218, 125251)]

def forwardRanges : List Range := [
  (43122, 43122), (68301, 68301), (68311, 68311), (68864, 68864)]

def backwardRanges : List Range := [
  (1570, 1573), (1575, 1575), (1577, 1577), (1583, 1586), (1608, 1608), (1649, 1651), (1672, 1689),
  (1728, 1728), (1731, 1739), (1741, 1741), (1743, 1743), (1746, 1749), (1774, 1775), (1808, 1808),
  (1813, 1817), (1822, 1822), (1832, 1832), (1834, 1834), (1836, 1836), (1839, 1839), (1869, 1869),
  (1881, 1883), (1899, 1900), (1905, 1905), (1907, 1908), (1912, 1913), (2112, 2112), (2118, 2119),
  (2121, 2121), (2132, 2132), (2134, 2136), (2151, 2151), (2153, 2178), (2190, 2190), (2218, 2220),
  (2222, 2222), (2225, 2226), (2233, 2233), (68293, 68293), (68295, 68298), (68302, 68306),
  (68317, 68317), (68321, 68321), (68324, 68324), (68481, 68481), (68483, 68485), (68489, 68489),
  (68492, 68492), (68494, 68495), (68497, 68497), (68898, 68898), (69427, 69427), (69492, 69493),
  (69556, 69558), (69561, 69562), (69565, 69565), (69570, 69571)]

def joinsForward (c : Char) : Bool :=
  inRanges c.toNat joiningRanges || inRanges c.toNat forwardRanges

def joinsBackward (c : Char) : Bool :=
  inRanges c.toNat joiningRanges || inRanges c.toNat backwardRanges

def transparentRanges : List Range := [
  (3263, 3263), (3270, 3270), (72199, 72200), (72767, 72767), (125259, 125259)]

def isTransparent (c : Char) : Bool :=
  (direction c == .attached && c.toNat != 0x1171E) || inRanges c.toNat transparentRanges

def silencerClass : Nat := 9

def followsSilencer : Text → Bool
  | c :: _ => Text.markClass c.toNat == silencerClass
  | [] => false

def firstSolid? (t : Text) : Option Char := t.find? fun c => !isTransparent c

/-- Whether the joiner that parts letters is at home between two texts, of which the first
is in reverse. -/
def partsLetters (before after : Text) : Bool :=
  followsSilencer before ||
    ((firstSolid? before).any joinsForward && (firstSolid? after).any joinsBackward)

end PullGauge.Host
