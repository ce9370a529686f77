import Runbook.Unicode.Property
import Runbook.Unicode.Script

/-!
# Breaks

Every character has a role in the search for the ends of graphemes, words and sentences.  Characters
without a special role are in no set.
-/

namespace Runbook.Unicode

/-! ## Graphemes -/

def graphemeExtender : CodeSet := graphemeExtend.union emojiModifier

def prepended : CodeSet :=
  .read ["600-605 6DD 70F 890-891 8E2 D4E 110BD 110CD 111C2-111C3 113D1 1193F 11941 11A3A",
    "11A84-11A89 11D46 11F02"]

def graphemeSpacingMark : CodeSet :=
  ((Category.set .spacingMark).difference graphemeExtend).adjusted
    ["E33 EB3"]
    ["102B-102C 1038 1062-1064 1067-106D 1083 1087-108C 108F 109A-109C 1A61 1A63-1A64 AA7B AA7D",
      "11720-11721"]

def openSyllable : CodeSet := .read ["AC00-D788/1C"]

def closedSyllable : CodeSet := (CodeSet.read ["AC00-D7A3"]).difference openSyllable

def graphemeControl : CodeSet :=
  (CodeSet.unions
    [Category.union [.lineSeparator, .paragraphSeparator, .control, .format],
      unassigned.intersection defaultIgnorable]).difference
    (.unions [.read ["A D 200C-200D"], prepended, graphemeExtend])

def graphemeBreaks : List NamedSet :=
  [
    ⟨["cr"], .read ["D"]⟩,
    ⟨["cn", "control"], graphemeControl⟩,
    ⟨["ex", "extend"], graphemeExtender⟩,
    ⟨["l"], .read ["1100-115F A960-A97C"]⟩,
    ⟨["lf"], .read ["A"]⟩,
    ⟨["lv"], openSyllable⟩,
    ⟨["lvt"], closedSyllable⟩,
    ⟨["pp", "prepend"], prepended⟩,
    ⟨["ri", "regionalindicator"], regionalIndicator⟩,
    ⟨["sm", "spacingmark"], graphemeSpacingMark⟩,
    ⟨["t"], .read ["11A8-11FF D7CB-D7FB"]⟩,
    ⟨["v"], .read ["1160-11A7 D7B0-D7C6 16D63 16D67-16D6A"]⟩,
    ⟨["zwj"], .read ["200D"]⟩
  ]

/-! ## Words -/

def wordExtender : CodeSet :=
  .unions [graphemeExtend, Category.set .spacingMark, emojiModifier]

def scriptSet (name : String) : CodeSet := (NamedSet.find? scripts name).getD .empty

def hebrewLetter : CodeSet := (scriptSet "hebrew").intersection (Category.set .otherLetter)

def wordKatakana : CodeSet :=
  .read ["3031-3035 309B-309C 30A0-30FA 30FC-30FF 31F0-31FF 32D0-32FE 3300-3357 FF66-FF9D",
    "1AFF0-1AFF3 1AFF5-1AFFB 1AFFD-1AFFE 1B000 1B120-1B122 1B155 1B164-1B167"]

def wordLetter : CodeSet :=
  (alphabetic.difference
      (.unions
        [ideographic, wordKatakana, scriptSet "thai", scriptSet "lao", scriptSet "hiragana",
          wordExtender, hebrewLetter])).adjusted
    ["2C2-2C5 2D2-2D7 2DE-2DF 2E5-2EB 2ED 2EF-2FF 55A-55C 55E 58A 5F3 70F A708-A716 A720-A721",
      "A789-A78A AB5B"]
    ["1000-102A 103F 1050-1055 105A-105D 1061 1065-1066 106E-1070 1075-1081 108E 1780-17B3 17D7",
      "17DC 1950-196D 1970-1974 1980-19AB 19B0-19C9 1A20-1A54 1AA7 A9E0-A9E4 A9E6-A9EF",
      "A9FA-A9FE AA60-AA76 AA7A AA7E-AAAF AAB1 AAB5-AAB6 AAB9-AABD AAC0 AAC2 AADB-AADD",
      "11700-1171A 11740-11746"]

def wordNumeric : CodeSet :=
  (Category.set .decimalNumber).adjusted ["600-605 66B 6DD 890-891 8E2 19DA 110BD 110CD"] []

def wordBreaks : List NamedSet :=
  [
    ⟨["le", "aletter"], wordLetter⟩,
    ⟨["cr"], .read ["D"]⟩,
    ⟨["dq", "doublequote"], .read ["22"]⟩,
    ⟨["extend"], wordExtender⟩,
    ⟨["ex", "extendnumlet"], .read ["5F 202F 203F-2040 2054 FE33-FE34 FE4D-FE4F FF3F"]⟩,
    ⟨["fo", "format"],
      .read ["AD 61C 180E 200E-200F 202A-202E 2060-2064 2066-206F FEFF FFF9-FFFB 13430-1343F",
        "1BCA0-1BCA3 1D173-1D17A E0001"]⟩,
    ⟨["hl", "hebrewletter"], hebrewLetter⟩,
    ⟨["ka", "katakana"], wordKatakana⟩,
    ⟨["lf"], .read ["A"]⟩,
    ⟨["ml", "midletter"], .read ["3A B7 387 55F 5F4 2027 FE13 FE55 FF1A"]⟩,
    ⟨["mn", "midnum"], .read ["2C 3B 37E 589 60C-60D 66C 7F8 2044 FE50 FE54 FF0C FF1B"]⟩,
    ⟨["mb", "midnumlet"], .read ["2E 2018-2019 2024 FE52 FF07 FF0E"]⟩,
    ⟨["nl", "newline"], .read ["B-C 85 2028-2029"]⟩,
    ⟨["nu", "numeric"], wordNumeric⟩,
    ⟨["ri", "regionalindicator"], regionalIndicator⟩,
    ⟨["sq", "singlequote"], .read ["27"]⟩,
    ⟨["wsegspace"], .read ["20 1680 2000-2006 2008-200A 205F 3000"]⟩,
    ⟨["zwj"], .read ["200D"]⟩
  ]

/-! ## Sentences -/

def sentenceExtender : CodeSet :=
  .unions [graphemeExtend, Category.set .spacingMark, .single 0x200d]

def sentenceLower : CodeSet :=
  (lowercase.difference graphemeExtend).adjusted [] ["10D0-10FA 10FD-10FF"]

def sentenceUpper : CodeSet :=
  (uppercase.union (Category.set .titlecaseLetter)).adjusted [] ["1C90-1CBA 1CBD-1CBF"]

def sentenceLetter : CodeSet :=
  (alphabetic.difference (.unions [sentenceLower, sentenceUpper, sentenceExtender])).adjusted
    ["5F3"]
    []

def sentenceNumeric : CodeSet :=
  wordNumeric.adjusted ["66C"] []

def sentenceSpace : CodeSet :=
  whiteSpace.adjusted [] ["A D 85 2028-2029"]

def sentenceEnd : CodeSet :=
  sentenceTerminal.adjusted [] ["2E 2024 FE52 FF0E"]

def sentenceBreaks : List NamedSet :=
  [
    ⟨["at", "aterm"], .read ["2E 2024 FE52 FF0E"]⟩,
    ⟨["cr"], .read ["D"]⟩,
    ⟨["cl", "close"],
      .read ["22 27-29 5B 5D 7B 7D AB BB F3A-F3D 169B-169C 2018-201F 2039-203A 2045-2046",
        "207D-207E 208D-208E 2308-230B 2329-232A 275B-2760 2768-2775 27C5-27C6 27E6-27EF",
        "2983-2998 29D8-29DB 29FC-29FD 2E00-2E0D 2E1C-2E1D 2E20-2E29 2E42 2E55-2E5C 3008-3011",
        "3014-301B 301D-301F FD3E-FD3F FE17-FE18 FE35-FE44 FE47-FE48 FE59-FE5E FF08-FF09 FF3B",
        "FF3D FF5B FF5D FF5F-FF60 FF62-FF63 1F676-1F678"]⟩,
    ⟨["ex", "extend"], sentenceExtender⟩,
    ⟨["fo", "format"],
      .read ["AD 61C 70F 180E 200B 200E-200F 202A-202E 2060-2064 2066-206F FEFF FFF9-FFFB",
        "13430-1343F 1BCA0-1BCA3 1D173-1D17A E0001"]⟩,
    ⟨["lf"], .read ["A"]⟩,
    ⟨["lo", "lower"], sentenceLower⟩,
    ⟨["nu", "numeric"], sentenceNumeric⟩,
    ⟨["le", "oletter"], sentenceLetter⟩,
    ⟨["sc", "scontinue"],
      .read ["2C-2D 3A-3B 37E 55D 60C-60D 7F8 1802 1808 2013-2014 3001 FE10-FE11 FE13-FE14",
        "FE31-FE32 FE50-FE51 FE54-FE55 FE58 FE63 FF0C-FF0D FF1A-FF1B FF64"]⟩,
    ⟨["st", "sterm"], sentenceEnd⟩,
    ⟨["se", "sep"], .read ["85 2028-2029"]⟩,
    ⟨["sp"], sentenceSpace⟩,
    ⟨["up", "upper"], sentenceUpper⟩
  ]

end Runbook.Unicode
