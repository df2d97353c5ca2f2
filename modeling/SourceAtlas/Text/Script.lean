import SourceAtlas.Text.Ranges

/-!
# Scripts

The code points of the writing systems.

* `Script.table`: the names of scripts with their ranges;
* **`Script.ranges?`**: the ranges of a script.
-/

namespace SourceAtlas.Text.Script

/-- The names of the scripts with their ranges. -/
def table : List (String × List String) :=
  [("Adlam", [
      "125184+75 5+9 5+1"]),
    ("Ahom", [
      "71424+26 3+14 5+22"]),
    ("Anatolian_Hieroglyphs", [
      "82944+582"]),
    ("Arabic", [
      "1536+4 2+5 2+13 2+2 2+31 2+9 12+25 2+107 2+33 81+47 241+33 6+74 2+28 62033+493 3+143 33+",
      "15 113+4 2+134 3940+30 68+5 9+8 34+5 57089+3 2+26 2+1 2+0 3+0 2+9 2+3 2+0 2+0 7+0 5+0 2+",
      "0 2+0 2+2 2+1 2+0 3+0 2+0 2+0 2+0 2+0 2+1 2+0 3+3 2+6 2+3 2+3 2+0 2+9 2+16 6+2 2+4 2+16 ",
      "53+1"]),
    ("Armenian", [
      "1329+37 3+49 3+2 62852+4"]),
    ("Avestan", [
      "68352+53 4+6"]),
    ("Balinese", [
      "6912+76 2+49"]),
    ("Bamum", [
      "42656+87 49417+568"]),
    ("Bassa_Vah", [
      "92880+29 3+5"]),
    ("Batak", [
      "7104+51 9+3"]),
    ("Bengali", [
      "2432+3 2+7 3+1 3+21 2+6 2+0 4+3 3+8 3+1 3+3 9+0 5+1 2+4 3+24"]),
    ("Bhaiksuki", [
      "72704+8 2+44 2+13 11+28"]),
    ("Bopomofo", [
      "746+1 11802+42 113+31"]),
    ("Brahmi", [
      "69632+77 5+35 10+0"]),
    ("Braille", [
      "10240+255"]),
    ("Buginese", [
      "6656+27 3+1"]),
    ("Buhid", [
      "5952+19"]),
    ("Canadian_Aboriginal", [
      "5120+639 561+69 65979+15"]),
    ("Carian", [
      "66208+48"]),
    ("Caucasian_Albanian", [
      "66864+51 12+0"]),
    ("Chakma", [
      "69888+52 2+17"]),
    ("Cham", [
      "43520+54 10+13 3+9 3+3"]),
    ("Cherokee", [
      "5024+85 3+5 38771+79"]),
    ("Chorasmian", [
      "69552+27"]),
    ("Common", [
      "0+64 27+5 27+46 2+14 2+4 24+0 32+0 450+38 6+4 3+19 117+0 10+0 7+0 2+0 638+0 7+0 15+0 4+0",
      " 33+0 157+0 517+0 130+1 1242+0 406+3 291+0 1520+2 72+1 204+1 2+0 1230+0 14+0 8+3 2+5 2+2",
      " 3+0 774+11 3+86 2+10 4+10 2+14 18+33 63+37 2+2 3+5 2+26 2+16 42+2 5+665 23+10 22+927 25",
      "7+627 3+137 513+93 403+20 2+0 2+24 16+7 5+3 92+1 4+0 91+1 148+15 33+37 10+0 49+63 32+80 ",
      "48+0 89+167 6593+63 22785+33 103+2 166+9 245+0 161+0 396+0 15+1 20947+1 209+9 23+34 2+18",
      " 2+3 148+0 2+31 27+5 27+10 11+0 46+1 65+6 2+6 11+4 259+2 5+44 4+8 81+12 52+44 229+26 475",
      "25+3 3933+252 4+435 7+22 16+16 96+115 61+245 11+38 3+61 4+16 9+1 8+29 5+60 214+19 13+19 ",
      "13+86 10+24 136+84 2+70 2+1 3+0 3+1 3+3 2+11 2+0 2+6 2+64 2+3 3+7 2+6 2+27 2+3 2+4 2+0 4",
      "+6 2+339 3+291 3+49 5234+67 77+60 707+43 5+99 13+14 3+14 2+14 2+36 11+173 57+25 2+1 14+4",
      "3 5+8 8+1 15+5 155+984 4+16 4+12 4+217 7+11 5+0 16+11 5+55 9+9 7+39 9+29 3+11 5+1 15+8 4",
      "0+343 9+13 3+12 4+10 4+56 2+0 5+15 3+11 5+9 8+146 2+102 787463+0 31+95"]),
    ("Coptic", [
      "994+13 10385+115 6+6"]),
    ("Cuneiform", [
      "73728+921 103+110 2+4 12+195"]),
    ("Cypriot", [
      "67584+5 3+0 2+43 2+1 4+0 3+0"]),
    ("Cypro_Minoan", [
      "77712+98"]),
    ("Cyrillic", [
      "1024+132 3+168 5969+10 161+0 77+0 4200+31 30785+95 22415+1 57857+61 34+0"]),
    ("Deseret", [
      "66560+79"]),
    ("Devanagari", [
      "2304+80 5+14 3+25 40801+31 29185+9"]),
    ("Dives_Akuru", [
      "71936+6 3+0 3+7 2+1 2+29 2+1 3+11 10+9"]),
    ("Dogra", [
      "71680+59"]),
    ("Duployan", [
      "113664+106 6+12 4+8 8+9 3+3"]),
    ("Egyptian_Hieroglyphs", [
      "77824+1109 11+3994"]),
    ("Elbasan", [
      "66816+39"]),
    ("Elymaic", [
      "69600+22"]),
    ("Ethiopic", [
      "4608+72 2+3 3+6 2+0 2+3 3+40 2+3 3+32 2+3 3+6 2+0 2+3 3+14 2+56 2+3 3+66 3+31 4+25 6631+",
      "22 10+6 2+6 2+6 2+6 2+6 2+6 2+6 2+6 32035+5 3+5 3+5 10+6 2+6 81074+6 2+3 2+1 2+14"]),
    ("Georgian", [
      "4256+37 2+0 6+0 3+42 2+3 2961+42 3+2 4161+37 2+0 6+0"]),
    ("Glagolitic", [
      "11264+95 111521+6 2+16 3+6 2+1 2+4"]),
    ("Gothic", [
      "66352+26"]),
    ("Grantha", [
      "70400+3 2+7 3+1 3+21 2+6 2+1 2+4 3+8 3+1 3+2 3+0 7+0 6+6 3+6 4+4"]),
    ("Greek", [
      "880+3 2+2 3+3 2+0 5+0 2+0 2+2 2+0 2+19 2+62 15+15 6439+4 51+4 5+4 85+0 321+21 3+5 3+37 3",
      "+5 3+7 2+0 2+0 2+0 2+30 3+52 2+14 2+13 3+5 2+18 3+2 2+8 296+0 35391+0 21979+78 18+0 5334",
      "4+69"]),
    ("Gujarati", [
      "2689+2 2+8 2+2 2+21 2+6 2+1 2+4 3+9 2+2 2+2 3+0 16+3 3+11 8+6"]),
    ("Gunjala_Gondi", [
      "73056+5 2+1 2+36 2+1 2+5 8+9"]),
    ("Gurmukhi", [
      "2561+2 2+5 5+1 3+21 2+6 2+1 2+1 2+1 3+0 2+4 5+1 3+2 4+0 8+3 2+0 8+16"]),
    ("Han", [
      "11904+25 2+88 13+213 48+0 2+0 26+8 15+3 965+6591 65+20991 22785+365 3+105 29961+1 13+6 3",
      "6874+42719 33+4381 3+5773 3+7472 16+621 2467+541 1507+4938 6+8489"]),
    ("Hangul", [
      "4352+255 7727+1 258+93 114+30 66+30 30434+28 644+11171 13+22 5+48 10149+30 4+5 3+5 3+5 3",
      "+2"]),
    ("Hanifi_Rohingya", [
      "68864+39 9+9"]),
    ("Hanunoo", [
      "5920+20"]),
    ("Hatran", [
      "67808+18 2+1 6+4"]),
    ("Hebrew", [
      "1425+54 9+26 5+5 62761+25 2+4 2+0 2+1 2+1 2+9"]),
    ("Hiragana", [
      "12353+85 7+2 98146+286 19+0 30+2 16558+0"]),
    ("Imperial_Aramaic", [
      "67648+21 2+8"]),
    ("Inherited", [
      "768+111 278+1 453+10 27+0 737+3 4444+45 3+11 485+2 2+12 2+6 5+0 7+0 4+1 199+63 525+1 195",
      "+32 3898+3 108+1 52582+15 17+13 976+0 227+0 4187+0 48069+45 3+22 545+2 18+7 3+6 31+3 798",
      "547+239"]),
    ("Inscriptional_Pahlavi", [
      "68448+18 6+7"]),
    ("Inscriptional_Parthian", [
      "68416+21 3+7"]),
    ("Javanese", [
      "43392+77 3+9 5+1"]),
    ("Kaithi", [
      "69760+66 11+0"]),
    ("Kannada", [
      "3200+12 2+2 2+22 2+9 2+4 3+8 2+2 2+3 8+1 6+2 2+3 3+9 2+2"]),
    ("Katakana", [
      "12449+89 3+2 241+15 209+46 2+87 52239+9 2+44 45139+3 2+6 2+1 2+0 288+2 51+0 15+3"]),
    ("Kawi", [
      "73472+16 2+40 4+28"]),
    ("Kayah_Li", [
      "43264+45 2+0"]),
    ("Kharoshthi", [
      "68096+3 2+1 6+7 2+2 2+28 3+2 5+9 8+8"]),
    ("Khitan_Small_Script", [
      "94180+0 6940+469 42+0"]),
    ("Khmer", [
      "6016+93 3+9 7+9 487+31"]),
    ("Khojki", [
      "70144+17 2+46"]),
    ("Khudawadi", [
      "70320+58 6+9"]),
    ("Lao", [
      "3713+1 2+0 2+4 2+23 2+0 2+22 3+4 2+0 2+6 2+9 3+3"]),
    ("Latin", [
      "65+25 7+25 48+0 16+0 6+22 2+30 2+448 40+4 6684+37 7+48 6+3 6+12 2+69 66+255 370+0 14+0 1",
      "7+12 142+1 7+0 28+0 18+40 2776+31 31395+101 4+81 21+14 817+42 2+8 2+3 20375+6 1051+25 7+",
      "25 2086+5 2+41 2+8 55110+30 7+5"]),
    ("Lepcha", [
      "7168+55 4+14 4+2"]),
    ("Limbu", [
      "6400+30 2+11 5+11 5+0 4+11"]),
    ("Linear_A", [
      "67072+310 10+21 11+7"]),
    ("Linear_B", [
      "65536+11 2+25 2+18 2+1 2+14 3+13 35+122"]),
    ("Lisu", [
      "42192+47 31409+0"]),
    ("Lycian", [
      "66176+28"]),
    ("Lydian", [
      "67872+25 6+0"]),
    ("Mahajani", [
      "69968+38"]),
    ("Makasar", [
      "73440+24"]),
    ("Malayalam", [
      "3328+12 2+2 2+50 2+2 2+5 5+15 3+25"]),
    ("Mandaic", [
      "2112+27 3+0"]),
    ("Manichaean", [
      "68288+38 5+11"]),
    ("Marchen", [
      "72816+31 3+21 2+13"]),
    ("Masaram_Gondi", [
      "72960+6 2+1 2+43 4+0 2+1 2+8 9+9"]),
    ("Medefaidrin", [
      "93760+90"]),
    ("Meetei_Mayek", [
      "43744+22 202+45 3+9"]),
    ("Mende_Kikakui", [
      "124928+196 3+15"]),
    ("Meroitic_Cursive", [
      "68000+23 5+19 3+45"]),
    ("Meroitic_Hieroglyphs", [
      "67968+31"]),
    ("Miao", [
      "93952+74 5+56 8+16"]),
    ("Modi", [
      "71168+68 12+9"]),
    ("Mongolian", [
      "6144+1 3+0 2+19 7+88 8+42 64950+12"]),
    ("Mro", [
      "92736+30 2+9 5+1"]),
    ("Multani", [
      "70272+6 2+0 2+3 2+14 2+10"]),
    ("Myanmar", [
      "4096+159 39233+30 98+31 27729+19"]),
    ("Nabataean", [
      "67712+30 9+8"]),
    ("Nag_Mundari", [
      "124112+41"]),
    ("Nandinagari", [
      "72096+7 3+45 3+10"]),
    ("New_Tai_Lue", [
      "6528+43 5+25 7+10 4+1"]),
    ("Newa", [
      "70656+91 2+4"]),
    ("Nko", [
      "1984+58 3+2"]),
    ("Nushu", [
      "94177+0 16783+395"]),
    ("Nyiakeng_Puachue_Hmong", [
      "123136+44 4+13 3+9 5+1"]),
    ("Ogham", [
      "5760+28"]),
    ("Ol_Chiki", [
      "7248+47"]),
    ("Old_Hungarian", [
      "68736+50 14+50 8+5"]),
    ("Old_Italic", [
      "66304+35 10+2"]),
    ("Old_North_Arabian", [
      "68224+31"]),
    ("Old_Permic", [
      "66384+42"]),
    ("Old_Persian", [
      "66464+35 5+13"]),
    ("Old_Sogdian", [
      "69376+39"]),
    ("Old_South_Arabian", [
      "68192+31"]),
    ("Old_Turkic", [
      "68608+72"]),
    ("Old_Uyghur", [
      "69488+25"]),
    ("Oriya", [
      "2817+2 2+7 3+1 3+21 2+6 2+1 2+4 3+8 3+1 3+2 8+2 5+1 2+4 3+17"]),
    ("Osage", [
      "66736+35 5+35"]),
    ("Osmanya", [
      "66688+29 3+9"]),
    ("Pahawh_Hmong", [
      "92928+69 11+9 2+6 2+20 6+18"]),
    ("Palmyrene", [
      "67680+31"]),
    ("Pau_Cin_Hau", [
      "72384+56"]),
    ("Phags_Pa", [
      "43072+55"]),
    ("Phoenician", [
      "67840+27 4+0"]),
    ("Psalter_Pahlavi", [
      "68480+17 8+3 13+6"]),
    ("Rejang", [
      "43312+35 12+0"]),
    ("Runic", [
      "5792+74 4+10"]),
    ("Samaritan", [
      "2048+45 3+14"]),
    ("Saurashtra", [
      "43136+69 9+11"]),
    ("Sharada", [
      "70016+95 2433+7"]),
    ("Shavian", [
      "66640+47"]),
    ("Siddham", [
      "71040+53 3+37"]),
    ("SignWriting", [
      "120832+651 16+4 2+14"]),
    ("Sinhala", [
      "3457+2 2+17 4+23 2+8 2+0 3+6 4+0 5+5 2+0 2+7 7+9 3+2 66541+19"]),
    ("Sogdian", [
      "69424+41"]),
    ("Sora_Sompeng", [
      "69840+24 8+9"]),
    ("Soyombo", [
      "72272+82"]),
    ("Sundanese", [
      "7040+63 257+7"]),
    ("Syloti_Nagri", [
      "43008+44"]),
    ("Syriac", [
      "1792+13 2+59 3+2 273+10"]),
    ("Tagalog", [
      "5888+21 10+0"]),
    ("Tagbanwa", [
      "5984+12 2+2 2+1"]),
    ("Tai_Le", [
      "6480+29 3+4"]),
    ("Tai_Tham", [
      "6688+62 2+28 3+10 7+9 7+13"]),
    ("Tai_Viet", [
      "43648+66 25+4"]),
    ("Takri", [
      "71296+57 7+9"]),
    ("Tamil", [
      "2946+1 2+5 4+2 2+3 4+1 2+0 2+1 4+1 4+2 4+11 5+4 4+2 2+3 3+0 7+0 15+20 70598+49 14+0"]),
    ("Tangsa", [
      "92784+78 2+9"]),
    ("Tangut", [
      "94176+0 32+6911 513+30 98+114"]),
    ("Telugu", [
      "3072+12 2+2 2+22 2+15 3+8 2+2 2+3 8+1 2+2 2+1 3+3 3+9 8+8"]),
    ("Thaana", [
      "1920+49"]),
    ("Thai", [
      "3585+57 6+27"]),
    ("Tibetan", [
      "3840+71 2+35 5+38 2+35 2+14 2+6 5+1"]),
    ("Tifinagh", [
      "11568+55 8+1 15+0"]),
    ("Tirhuta", [
      "70784+71 9+9"]),
    ("Toto", [
      "123536+30"]),
    ("Ugaritic", [
      "66432+29 2+0"]),
    ("Vai", [
      "42240+299"]),
    ("Vithkuqi", [
      "66928+10 2+14 2+6 2+1 2+10 2+14 2+6 2+1"]),
    ("Wancho", [
      "123584+57 6+0"]),
    ("Warang_Citi", [
      "71840+82 13+0"]),
    ("Yezidi", [
      "69248+41 2+2 3+1"]),
    ("Yi", [
      "40960+1164 4+54"]),
    ("Zanabazar_Square", [
      "72192+71"]),
    ("Garay", [
      "68928+37 4+28 9+1"]),
    ("Gurung_Khema", [
      "90368+57"]),
    ("Kirat_Rai", [
      "93504+57"]),
    ("Ol_Onal", [
      "124368+42 5+0"]),
    ("Sunuwar", [
      "72640+33 15+9"]),
    ("Todhri", [
      "67008+51"]),
    ("Tulu_Tigalari", [
      "70528+9 2+0 3+0 2+37 2+9 2+0 3+0 2+3 2+9 2+1 9+1"])]

/-- Small letters and digits only, so that spellings of a name can be compared. -/
def simplify (name : String) : String :=
  String.ofList ((name.toList.filter Char.isAlphanum).map Char.toLower)

/-- The ranges of a script, if there is one with this name. -/
def ranges? (name : String) : Option (List (Nat × Nat)) :=
  (table.find? fun s => simplify s.1 == name).map fun s => Ranges.decode (String.join s.2)

end SourceAtlas.Text.Script
