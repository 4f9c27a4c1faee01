/-!
Names of characters, for those in common use. Control characters have several.
-/

namespace Formwork.Text

def charNames : List (Nat × String) := [
  (0, "NULL"), (0, "NUL"), (1, "START OF HEADING"), (2, "START OF TEXT"), (3, "END OF TEXT"),
  (4, "END OF TRANSMISSION"), (5, "ENQUIRY"), (6, "ACKNOWLEDGE"), (7, "ALERT"), (7, "BEL"),
  (8, "BACKSPACE"), (8, "BS"), (9, "CHARACTER TABULATION"), (9, "HORIZONTAL TABULATION"), (9, "HT"),
  (9, "TAB"), (10, "LINE FEED"), (10, "NEW LINE"), (10, "END OF LINE"), (10, "LF"), (10, "NL"),
  (10, "EOL"), (11, "LINE TABULATION"), (11, "VERTICAL TABULATION"), (11, "VT"), (12, "FORM FEED"),
  (12, "FF"), (13, "CARRIAGE RETURN"), (13, "CR"), (14, "SHIFT OUT"), (15, "SHIFT IN"),
  (27, "ESCAPE"), (27, "ESC"), (32, "SPACE"), (32, "SP"), (33, "EXCLAMATION MARK"),
  (34, "QUOTATION MARK"), (35, "NUMBER SIGN"), (36, "DOLLAR SIGN"), (37, "PERCENT SIGN"),
  (38, "AMPERSAND"), (39, "APOSTROPHE"), (40, "LEFT PARENTHESIS"), (41, "RIGHT PARENTHESIS"),
  (42, "ASTERISK"), (43, "PLUS SIGN"), (44, "COMMA"), (45, "HYPHEN-MINUS"), (46, "FULL STOP"),
  (47, "SOLIDUS"), (48, "DIGIT ZERO"), (49, "DIGIT ONE"), (50, "DIGIT TWO"), (51, "DIGIT THREE"),
  (52, "DIGIT FOUR"), (53, "DIGIT FIVE"), (54, "DIGIT SIX"), (55, "DIGIT SEVEN"),
  (56, "DIGIT EIGHT"), (57, "DIGIT NINE"), (58, "COLON"), (59, "SEMICOLON"), (60, "LESS-THAN SIGN"),
  (61, "EQUALS SIGN"), (62, "GREATER-THAN SIGN"), (63, "QUESTION MARK"), (64, "COMMERCIAL AT"),
  (65, "LATIN CAPITAL LETTER A"), (66, "LATIN CAPITAL LETTER B"), (67, "LATIN CAPITAL LETTER C"),
  (68, "LATIN CAPITAL LETTER D"), (69, "LATIN CAPITAL LETTER E"), (70, "LATIN CAPITAL LETTER F"),
  (71, "LATIN CAPITAL LETTER G"), (72, "LATIN CAPITAL LETTER H"), (73, "LATIN CAPITAL LETTER I"),
  (74, "LATIN CAPITAL LETTER J"), (75, "LATIN CAPITAL LETTER K"), (76, "LATIN CAPITAL LETTER L"),
  (77, "LATIN CAPITAL LETTER M"), (78, "LATIN CAPITAL LETTER N"), (79, "LATIN CAPITAL LETTER O"),
  (80, "LATIN CAPITAL LETTER P"), (81, "LATIN CAPITAL LETTER Q"), (82, "LATIN CAPITAL LETTER R"),
  (83, "LATIN CAPITAL LETTER S"), (84, "LATIN CAPITAL LETTER T"), (85, "LATIN CAPITAL LETTER U"),
  (86, "LATIN CAPITAL LETTER V"), (87, "LATIN CAPITAL LETTER W"), (88, "LATIN CAPITAL LETTER X"),
  (89, "LATIN CAPITAL LETTER Y"), (90, "LATIN CAPITAL LETTER Z"), (91, "LEFT SQUARE BRACKET"),
  (92, "REVERSE SOLIDUS"), (93, "RIGHT SQUARE BRACKET"), (94, "CIRCUMFLEX ACCENT"),
  (95, "LOW LINE"), (96, "GRAVE ACCENT"), (97, "LATIN SMALL LETTER A"),
  (98, "LATIN SMALL LETTER B"), (99, "LATIN SMALL LETTER C"), (100, "LATIN SMALL LETTER D"),
  (101, "LATIN SMALL LETTER E"), (102, "LATIN SMALL LETTER F"), (103, "LATIN SMALL LETTER G"),
  (104, "LATIN SMALL LETTER H"), (105, "LATIN SMALL LETTER I"), (106, "LATIN SMALL LETTER J"),
  (107, "LATIN SMALL LETTER K"), (108, "LATIN SMALL LETTER L"), (109, "LATIN SMALL LETTER M"),
  (110, "LATIN SMALL LETTER N"), (111, "LATIN SMALL LETTER O"), (112, "LATIN SMALL LETTER P"),
  (113, "LATIN SMALL LETTER Q"), (114, "LATIN SMALL LETTER R"), (115, "LATIN SMALL LETTER S"),
  (116, "LATIN SMALL LETTER T"), (117, "LATIN SMALL LETTER U"), (118, "LATIN SMALL LETTER V"),
  (119, "LATIN SMALL LETTER W"), (120, "LATIN SMALL LETTER X"), (121, "LATIN SMALL LETTER Y"),
  (122, "LATIN SMALL LETTER Z"), (123, "LEFT CURLY BRACKET"), (124, "VERTICAL LINE"),
  (125, "RIGHT CURLY BRACKET"), (126, "TILDE"), (127, "DELETE"), (127, "DEL"), (133, "NEXT LINE"),
  (133, "NEL"), (160, "NO-BREAK SPACE"), (160, "NBSP"), (161, "INVERTED EXCLAMATION MARK"),
  (162, "CENT SIGN"), (163, "POUND SIGN"), (164, "CURRENCY SIGN"), (165, "YEN SIGN"),
  (166, "BROKEN BAR"), (167, "SECTION SIGN"), (168, "DIAERESIS"), (169, "COPYRIGHT SIGN"),
  (170, "FEMININE ORDINAL INDICATOR"), (171, "LEFT-POINTING DOUBLE ANGLE QUOTATION MARK"),
  (172, "NOT SIGN"), (173, "SOFT HYPHEN"), (173, "SHY"), (174, "REGISTERED SIGN"), (175, "MACRON"),
  (176, "DEGREE SIGN"), (177, "PLUS-MINUS SIGN"), (178, "SUPERSCRIPT TWO"),
  (179, "SUPERSCRIPT THREE"), (180, "ACUTE ACCENT"), (181, "MICRO SIGN"), (182, "PILCROW SIGN"),
  (183, "MIDDLE DOT"), (184, "CEDILLA"), (185, "SUPERSCRIPT ONE"),
  (186, "MASCULINE ORDINAL INDICATOR"), (187, "RIGHT-POINTING DOUBLE ANGLE QUOTATION MARK"),
  (188, "VULGAR FRACTION ONE QUARTER"), (189, "VULGAR FRACTION ONE HALF"),
  (190, "VULGAR FRACTION THREE QUARTERS"), (191, "INVERTED QUESTION MARK"),
  (192, "LATIN CAPITAL LETTER A WITH GRAVE"), (193, "LATIN CAPITAL LETTER A WITH ACUTE"),
  (194, "LATIN CAPITAL LETTER A WITH CIRCUMFLEX"), (195, "LATIN CAPITAL LETTER A WITH TILDE"),
  (196, "LATIN CAPITAL LETTER A WITH DIAERESIS"), (197, "LATIN CAPITAL LETTER A WITH RING ABOVE"),
  (198, "LATIN CAPITAL LETTER AE"), (199, "LATIN CAPITAL LETTER C WITH CEDILLA"),
  (200, "LATIN CAPITAL LETTER E WITH GRAVE"), (201, "LATIN CAPITAL LETTER E WITH ACUTE"),
  (202, "LATIN CAPITAL LETTER E WITH CIRCUMFLEX"), (203, "LATIN CAPITAL LETTER E WITH DIAERESIS"),
  (204, "LATIN CAPITAL LETTER I WITH GRAVE"), (205, "LATIN CAPITAL LETTER I WITH ACUTE"),
  (206, "LATIN CAPITAL LETTER I WITH CIRCUMFLEX"), (207, "LATIN CAPITAL LETTER I WITH DIAERESIS"),
  (208, "LATIN CAPITAL LETTER ETH"), (209, "LATIN CAPITAL LETTER N WITH TILDE"),
  (210, "LATIN CAPITAL LETTER O WITH GRAVE"), (211, "LATIN CAPITAL LETTER O WITH ACUTE"),
  (212, "LATIN CAPITAL LETTER O WITH CIRCUMFLEX"), (213, "LATIN CAPITAL LETTER O WITH TILDE"),
  (214, "LATIN CAPITAL LETTER O WITH DIAERESIS"), (215, "MULTIPLICATION SIGN"),
  (216, "LATIN CAPITAL LETTER O WITH STROKE"), (217, "LATIN CAPITAL LETTER U WITH GRAVE"),
  (218, "LATIN CAPITAL LETTER U WITH ACUTE"), (219, "LATIN CAPITAL LETTER U WITH CIRCUMFLEX"),
  (220, "LATIN CAPITAL LETTER U WITH DIAERESIS"), (221, "LATIN CAPITAL LETTER Y WITH ACUTE"),
  (222, "LATIN CAPITAL LETTER THORN"), (223, "LATIN SMALL LETTER SHARP S"),
  (224, "LATIN SMALL LETTER A WITH GRAVE"), (225, "LATIN SMALL LETTER A WITH ACUTE"),
  (226, "LATIN SMALL LETTER A WITH CIRCUMFLEX"), (227, "LATIN SMALL LETTER A WITH TILDE"),
  (228, "LATIN SMALL LETTER A WITH DIAERESIS"), (229, "LATIN SMALL LETTER A WITH RING ABOVE"),
  (230, "LATIN SMALL LETTER AE"), (231, "LATIN SMALL LETTER C WITH CEDILLA"),
  (232, "LATIN SMALL LETTER E WITH GRAVE"), (233, "LATIN SMALL LETTER E WITH ACUTE"),
  (234, "LATIN SMALL LETTER E WITH CIRCUMFLEX"), (235, "LATIN SMALL LETTER E WITH DIAERESIS"),
  (236, "LATIN SMALL LETTER I WITH GRAVE"), (237, "LATIN SMALL LETTER I WITH ACUTE"),
  (238, "LATIN SMALL LETTER I WITH CIRCUMFLEX"), (239, "LATIN SMALL LETTER I WITH DIAERESIS"),
  (240, "LATIN SMALL LETTER ETH"), (241, "LATIN SMALL LETTER N WITH TILDE"),
  (242, "LATIN SMALL LETTER O WITH GRAVE"), (243, "LATIN SMALL LETTER O WITH ACUTE"),
  (244, "LATIN SMALL LETTER O WITH CIRCUMFLEX"), (245, "LATIN SMALL LETTER O WITH TILDE"),
  (246, "LATIN SMALL LETTER O WITH DIAERESIS"), (247, "DIVISION SIGN"),
  (248, "LATIN SMALL LETTER O WITH STROKE"), (249, "LATIN SMALL LETTER U WITH GRAVE"),
  (250, "LATIN SMALL LETTER U WITH ACUTE"), (251, "LATIN SMALL LETTER U WITH CIRCUMFLEX"),
  (252, "LATIN SMALL LETTER U WITH DIAERESIS"), (253, "LATIN SMALL LETTER Y WITH ACUTE"),
  (254, "LATIN SMALL LETTER THORN"), (255, "LATIN SMALL LETTER Y WITH DIAERESIS"),
  (256, "LATIN CAPITAL LETTER A WITH MACRON"), (257, "LATIN SMALL LETTER A WITH MACRON"),
  (258, "LATIN CAPITAL LETTER A WITH BREVE"), (259, "LATIN SMALL LETTER A WITH BREVE"),
  (260, "LATIN CAPITAL LETTER A WITH OGONEK"), (261, "LATIN SMALL LETTER A WITH OGONEK"),
  (262, "LATIN CAPITAL LETTER C WITH ACUTE"), (263, "LATIN SMALL LETTER C WITH ACUTE"),
  (264, "LATIN CAPITAL LETTER C WITH CIRCUMFLEX"), (265, "LATIN SMALL LETTER C WITH CIRCUMFLEX"),
  (266, "LATIN CAPITAL LETTER C WITH DOT ABOVE"), (267, "LATIN SMALL LETTER C WITH DOT ABOVE"),
  (268, "LATIN CAPITAL LETTER C WITH CARON"), (269, "LATIN SMALL LETTER C WITH CARON"),
  (270, "LATIN CAPITAL LETTER D WITH CARON"), (271, "LATIN SMALL LETTER D WITH CARON"),
  (272, "LATIN CAPITAL LETTER D WITH STROKE"), (273, "LATIN SMALL LETTER D WITH STROKE"),
  (274, "LATIN CAPITAL LETTER E WITH MACRON"), (275, "LATIN SMALL LETTER E WITH MACRON"),
  (276, "LATIN CAPITAL LETTER E WITH BREVE"), (277, "LATIN SMALL LETTER E WITH BREVE"),
  (278, "LATIN CAPITAL LETTER E WITH DOT ABOVE"), (279, "LATIN SMALL LETTER E WITH DOT ABOVE"),
  (280, "LATIN CAPITAL LETTER E WITH OGONEK"), (281, "LATIN SMALL LETTER E WITH OGONEK"),
  (282, "LATIN CAPITAL LETTER E WITH CARON"), (283, "LATIN SMALL LETTER E WITH CARON"),
  (284, "LATIN CAPITAL LETTER G WITH CIRCUMFLEX"), (285, "LATIN SMALL LETTER G WITH CIRCUMFLEX"),
  (286, "LATIN CAPITAL LETTER G WITH BREVE"), (287, "LATIN SMALL LETTER G WITH BREVE"),
  (288, "LATIN CAPITAL LETTER G WITH DOT ABOVE"), (289, "LATIN SMALL LETTER G WITH DOT ABOVE"),
  (290, "LATIN CAPITAL LETTER G WITH CEDILLA"), (291, "LATIN SMALL LETTER G WITH CEDILLA"),
  (292, "LATIN CAPITAL LETTER H WITH CIRCUMFLEX"), (293, "LATIN SMALL LETTER H WITH CIRCUMFLEX"),
  (294, "LATIN CAPITAL LETTER H WITH STROKE"), (295, "LATIN SMALL LETTER H WITH STROKE"),
  (296, "LATIN CAPITAL LETTER I WITH TILDE"), (297, "LATIN SMALL LETTER I WITH TILDE"),
  (298, "LATIN CAPITAL LETTER I WITH MACRON"), (299, "LATIN SMALL LETTER I WITH MACRON"),
  (300, "LATIN CAPITAL LETTER I WITH BREVE"), (301, "LATIN SMALL LETTER I WITH BREVE"),
  (302, "LATIN CAPITAL LETTER I WITH OGONEK"), (303, "LATIN SMALL LETTER I WITH OGONEK"),
  (304, "LATIN CAPITAL LETTER I WITH DOT ABOVE"), (305, "LATIN SMALL LETTER DOTLESS I"),
  (306, "LATIN CAPITAL LIGATURE IJ"), (307, "LATIN SMALL LIGATURE IJ"),
  (308, "LATIN CAPITAL LETTER J WITH CIRCUMFLEX"), (309, "LATIN SMALL LETTER J WITH CIRCUMFLEX"),
  (310, "LATIN CAPITAL LETTER K WITH CEDILLA"), (311, "LATIN SMALL LETTER K WITH CEDILLA"),
  (312, "LATIN SMALL LETTER KRA"), (313, "LATIN CAPITAL LETTER L WITH ACUTE"),
  (314, "LATIN SMALL LETTER L WITH ACUTE"), (315, "LATIN CAPITAL LETTER L WITH CEDILLA"),
  (316, "LATIN SMALL LETTER L WITH CEDILLA"), (317, "LATIN CAPITAL LETTER L WITH CARON"),
  (318, "LATIN SMALL LETTER L WITH CARON"), (319, "LATIN CAPITAL LETTER L WITH MIDDLE DOT"),
  (320, "LATIN SMALL LETTER L WITH MIDDLE DOT"), (321, "LATIN CAPITAL LETTER L WITH STROKE"),
  (322, "LATIN SMALL LETTER L WITH STROKE"), (323, "LATIN CAPITAL LETTER N WITH ACUTE"),
  (324, "LATIN SMALL LETTER N WITH ACUTE"), (325, "LATIN CAPITAL LETTER N WITH CEDILLA"),
  (326, "LATIN SMALL LETTER N WITH CEDILLA"), (327, "LATIN CAPITAL LETTER N WITH CARON"),
  (328, "LATIN SMALL LETTER N WITH CARON"), (329, "LATIN SMALL LETTER N PRECEDED BY APOSTROPHE"),
  (330, "LATIN CAPITAL LETTER ENG"), (331, "LATIN SMALL LETTER ENG"),
  (332, "LATIN CAPITAL LETTER O WITH MACRON"), (333, "LATIN SMALL LETTER O WITH MACRON"),
  (334, "LATIN CAPITAL LETTER O WITH BREVE"), (335, "LATIN SMALL LETTER O WITH BREVE"),
  (336, "LATIN CAPITAL LETTER O WITH DOUBLE ACUTE"),
  (337, "LATIN SMALL LETTER O WITH DOUBLE ACUTE"), (338, "LATIN CAPITAL LIGATURE OE"),
  (339, "LATIN SMALL LIGATURE OE"), (340, "LATIN CAPITAL LETTER R WITH ACUTE"),
  (341, "LATIN SMALL LETTER R WITH ACUTE"), (342, "LATIN CAPITAL LETTER R WITH CEDILLA"),
  (343, "LATIN SMALL LETTER R WITH CEDILLA"), (344, "LATIN CAPITAL LETTER R WITH CARON"),
  (345, "LATIN SMALL LETTER R WITH CARON"), (346, "LATIN CAPITAL LETTER S WITH ACUTE"),
  (347, "LATIN SMALL LETTER S WITH ACUTE"), (348, "LATIN CAPITAL LETTER S WITH CIRCUMFLEX"),
  (349, "LATIN SMALL LETTER S WITH CIRCUMFLEX"), (350, "LATIN CAPITAL LETTER S WITH CEDILLA"),
  (351, "LATIN SMALL LETTER S WITH CEDILLA"), (352, "LATIN CAPITAL LETTER S WITH CARON"),
  (353, "LATIN SMALL LETTER S WITH CARON"), (354, "LATIN CAPITAL LETTER T WITH CEDILLA"),
  (355, "LATIN SMALL LETTER T WITH CEDILLA"), (356, "LATIN CAPITAL LETTER T WITH CARON"),
  (357, "LATIN SMALL LETTER T WITH CARON"), (358, "LATIN CAPITAL LETTER T WITH STROKE"),
  (359, "LATIN SMALL LETTER T WITH STROKE"), (360, "LATIN CAPITAL LETTER U WITH TILDE"),
  (361, "LATIN SMALL LETTER U WITH TILDE"), (362, "LATIN CAPITAL LETTER U WITH MACRON"),
  (363, "LATIN SMALL LETTER U WITH MACRON"), (364, "LATIN CAPITAL LETTER U WITH BREVE"),
  (365, "LATIN SMALL LETTER U WITH BREVE"), (366, "LATIN CAPITAL LETTER U WITH RING ABOVE"),
  (367, "LATIN SMALL LETTER U WITH RING ABOVE"), (368, "LATIN CAPITAL LETTER U WITH DOUBLE ACUTE"),
  (369, "LATIN SMALL LETTER U WITH DOUBLE ACUTE"), (370, "LATIN CAPITAL LETTER U WITH OGONEK"),
  (371, "LATIN SMALL LETTER U WITH OGONEK"), (372, "LATIN CAPITAL LETTER W WITH CIRCUMFLEX"),
  (373, "LATIN SMALL LETTER W WITH CIRCUMFLEX"), (374, "LATIN CAPITAL LETTER Y WITH CIRCUMFLEX"),
  (375, "LATIN SMALL LETTER Y WITH CIRCUMFLEX"), (376, "LATIN CAPITAL LETTER Y WITH DIAERESIS"),
  (377, "LATIN CAPITAL LETTER Z WITH ACUTE"), (378, "LATIN SMALL LETTER Z WITH ACUTE"),
  (379, "LATIN CAPITAL LETTER Z WITH DOT ABOVE"), (380, "LATIN SMALL LETTER Z WITH DOT ABOVE"),
  (381, "LATIN CAPITAL LETTER Z WITH CARON"), (382, "LATIN SMALL LETTER Z WITH CARON"),
  (383, "LATIN SMALL LETTER LONG S"), (768, "COMBINING GRAVE ACCENT"),
  (769, "COMBINING ACUTE ACCENT"), (770, "COMBINING CIRCUMFLEX ACCENT"), (771, "COMBINING TILDE"),
  (776, "COMBINING DIAERESIS"), (778, "COMBINING RING ABOVE"), (807, "COMBINING CEDILLA"),
  (904, "GREEK CAPITAL LETTER EPSILON WITH TONOS"), (905, "GREEK CAPITAL LETTER ETA WITH TONOS"),
  (913, "GREEK CAPITAL LETTER ALPHA"), (914, "GREEK CAPITAL LETTER BETA"),
  (915, "GREEK CAPITAL LETTER GAMMA"), (916, "GREEK CAPITAL LETTER DELTA"),
  (917, "GREEK CAPITAL LETTER EPSILON"), (918, "GREEK CAPITAL LETTER ZETA"),
  (919, "GREEK CAPITAL LETTER ETA"), (920, "GREEK CAPITAL LETTER THETA"),
  (921, "GREEK CAPITAL LETTER IOTA"), (922, "GREEK CAPITAL LETTER KAPPA"),
  (923, "GREEK CAPITAL LETTER LAMDA"), (924, "GREEK CAPITAL LETTER MU"),
  (925, "GREEK CAPITAL LETTER NU"), (926, "GREEK CAPITAL LETTER XI"),
  (927, "GREEK CAPITAL LETTER OMICRON"), (928, "GREEK CAPITAL LETTER PI"),
  (929, "GREEK CAPITAL LETTER RHO"), (931, "GREEK CAPITAL LETTER SIGMA"),
  (932, "GREEK CAPITAL LETTER TAU"), (933, "GREEK CAPITAL LETTER UPSILON"),
  (934, "GREEK CAPITAL LETTER PHI"), (935, "GREEK CAPITAL LETTER CHI"),
  (936, "GREEK CAPITAL LETTER PSI"), (937, "GREEK CAPITAL LETTER OMEGA"),
  (938, "GREEK CAPITAL LETTER IOTA WITH DIALYTIKA"),
  (939, "GREEK CAPITAL LETTER UPSILON WITH DIALYTIKA"),
  (940, "GREEK SMALL LETTER ALPHA WITH TONOS"), (941, "GREEK SMALL LETTER EPSILON WITH TONOS"),
  (942, "GREEK SMALL LETTER ETA WITH TONOS"), (943, "GREEK SMALL LETTER IOTA WITH TONOS"),
  (944, "GREEK SMALL LETTER UPSILON WITH DIALYTIKA AND TONOS"), (945, "GREEK SMALL LETTER ALPHA"),
  (946, "GREEK SMALL LETTER BETA"), (947, "GREEK SMALL LETTER GAMMA"),
  (948, "GREEK SMALL LETTER DELTA"), (949, "GREEK SMALL LETTER EPSILON"),
  (950, "GREEK SMALL LETTER ZETA"), (951, "GREEK SMALL LETTER ETA"),
  (952, "GREEK SMALL LETTER THETA"), (953, "GREEK SMALL LETTER IOTA"),
  (954, "GREEK SMALL LETTER KAPPA"), (955, "GREEK SMALL LETTER LAMDA"),
  (956, "GREEK SMALL LETTER MU"), (957, "GREEK SMALL LETTER NU"), (958, "GREEK SMALL LETTER XI"),
  (959, "GREEK SMALL LETTER OMICRON"), (960, "GREEK SMALL LETTER PI"),
  (961, "GREEK SMALL LETTER RHO"), (962, "GREEK SMALL LETTER FINAL SIGMA"),
  (963, "GREEK SMALL LETTER SIGMA"), (964, "GREEK SMALL LETTER TAU"),
  (965, "GREEK SMALL LETTER UPSILON"), (966, "GREEK SMALL LETTER PHI"),
  (967, "GREEK SMALL LETTER CHI"), (968, "GREEK SMALL LETTER PSI"),
  (969, "GREEK SMALL LETTER OMEGA"), (1024, "CYRILLIC CAPITAL LETTER IE WITH GRAVE"),
  (1025, "CYRILLIC CAPITAL LETTER IO"), (1026, "CYRILLIC CAPITAL LETTER DJE"),
  (1027, "CYRILLIC CAPITAL LETTER GJE"), (1028, "CYRILLIC CAPITAL LETTER UKRAINIAN IE"),
  (1029, "CYRILLIC CAPITAL LETTER DZE"), (1030, "CYRILLIC CAPITAL LETTER BYELORUSSIAN-UKRAINIAN I"),
  (1031, "CYRILLIC CAPITAL LETTER YI"), (1032, "CYRILLIC CAPITAL LETTER JE"),
  (1033, "CYRILLIC CAPITAL LETTER LJE"), (1034, "CYRILLIC CAPITAL LETTER NJE"),
  (1035, "CYRILLIC CAPITAL LETTER TSHE"), (1036, "CYRILLIC CAPITAL LETTER KJE"),
  (1037, "CYRILLIC CAPITAL LETTER I WITH GRAVE"), (1038, "CYRILLIC CAPITAL LETTER SHORT U"),
  (1039, "CYRILLIC CAPITAL LETTER DZHE"), (1040, "CYRILLIC CAPITAL LETTER A"),
  (1041, "CYRILLIC CAPITAL LETTER BE"), (1042, "CYRILLIC CAPITAL LETTER VE"),
  (1043, "CYRILLIC CAPITAL LETTER GHE"), (1044, "CYRILLIC CAPITAL LETTER DE"),
  (1045, "CYRILLIC CAPITAL LETTER IE"), (1046, "CYRILLIC CAPITAL LETTER ZHE"),
  (1047, "CYRILLIC CAPITAL LETTER ZE"), (1048, "CYRILLIC CAPITAL LETTER I"),
  (1049, "CYRILLIC CAPITAL LETTER SHORT I"), (1050, "CYRILLIC CAPITAL LETTER KA"),
  (1051, "CYRILLIC CAPITAL LETTER EL"), (1052, "CYRILLIC CAPITAL LETTER EM"),
  (1053, "CYRILLIC CAPITAL LETTER EN"), (1054, "CYRILLIC CAPITAL LETTER O"),
  (1055, "CYRILLIC CAPITAL LETTER PE"), (1056, "CYRILLIC CAPITAL LETTER ER"),
  (1057, "CYRILLIC CAPITAL LETTER ES"), (1058, "CYRILLIC CAPITAL LETTER TE"),
  (1059, "CYRILLIC CAPITAL LETTER U"), (1060, "CYRILLIC CAPITAL LETTER EF"),
  (1061, "CYRILLIC CAPITAL LETTER HA"), (1062, "CYRILLIC CAPITAL LETTER TSE"),
  (1063, "CYRILLIC CAPITAL LETTER CHE"), (1064, "CYRILLIC CAPITAL LETTER SHA"),
  (1065, "CYRILLIC CAPITAL LETTER SHCHA"), (1066, "CYRILLIC CAPITAL LETTER HARD SIGN"),
  (1067, "CYRILLIC CAPITAL LETTER YERU"), (1068, "CYRILLIC CAPITAL LETTER SOFT SIGN"),
  (1069, "CYRILLIC CAPITAL LETTER E"), (1070, "CYRILLIC CAPITAL LETTER YU"),
  (1071, "CYRILLIC CAPITAL LETTER YA"), (1072, "CYRILLIC SMALL LETTER A"),
  (1073, "CYRILLIC SMALL LETTER BE"), (1074, "CYRILLIC SMALL LETTER VE"),
  (1075, "CYRILLIC SMALL LETTER GHE"), (1076, "CYRILLIC SMALL LETTER DE"),
  (1077, "CYRILLIC SMALL LETTER IE"), (1078, "CYRILLIC SMALL LETTER ZHE"),
  (1079, "CYRILLIC SMALL LETTER ZE"), (1080, "CYRILLIC SMALL LETTER I"),
  (1081, "CYRILLIC SMALL LETTER SHORT I"), (1082, "CYRILLIC SMALL LETTER KA"),
  (1083, "CYRILLIC SMALL LETTER EL"), (1084, "CYRILLIC SMALL LETTER EM"),
  (1085, "CYRILLIC SMALL LETTER EN"), (1086, "CYRILLIC SMALL LETTER O"),
  (1087, "CYRILLIC SMALL LETTER PE"), (1088, "CYRILLIC SMALL LETTER ER"),
  (1089, "CYRILLIC SMALL LETTER ES"), (1090, "CYRILLIC SMALL LETTER TE"),
  (1091, "CYRILLIC SMALL LETTER U"), (1092, "CYRILLIC SMALL LETTER EF"),
  (1093, "CYRILLIC SMALL LETTER HA"), (1094, "CYRILLIC SMALL LETTER TSE"),
  (1095, "CYRILLIC SMALL LETTER CHE"), (1096, "CYRILLIC SMALL LETTER SHA"),
  (1097, "CYRILLIC SMALL LETTER SHCHA"), (1098, "CYRILLIC SMALL LETTER HARD SIGN"),
  (1099, "CYRILLIC SMALL LETTER YERU"), (1100, "CYRILLIC SMALL LETTER SOFT SIGN"),
  (1101, "CYRILLIC SMALL LETTER E"), (1102, "CYRILLIC SMALL LETTER YU"),
  (1103, "CYRILLIC SMALL LETTER YA"), (1104, "CYRILLIC SMALL LETTER IE WITH GRAVE"),
  (1105, "CYRILLIC SMALL LETTER IO"), (1106, "CYRILLIC SMALL LETTER DJE"),
  (1107, "CYRILLIC SMALL LETTER GJE"), (1108, "CYRILLIC SMALL LETTER UKRAINIAN IE"),
  (1109, "CYRILLIC SMALL LETTER DZE"), (1110, "CYRILLIC SMALL LETTER BYELORUSSIAN-UKRAINIAN I"),
  (1111, "CYRILLIC SMALL LETTER YI"), (1112, "CYRILLIC SMALL LETTER JE"),
  (1113, "CYRILLIC SMALL LETTER LJE"), (1114, "CYRILLIC SMALL LETTER NJE"),
  (1115, "CYRILLIC SMALL LETTER TSHE"), (1116, "CYRILLIC SMALL LETTER KJE"),
  (1117, "CYRILLIC SMALL LETTER I WITH GRAVE"), (1118, "CYRILLIC SMALL LETTER SHORT U"),
  (1119, "CYRILLIC SMALL LETTER DZHE"), (1488, "HEBREW LETTER ALEF"), (1489, "HEBREW LETTER BET"),
  (1490, "HEBREW LETTER GIMEL"), (1491, "HEBREW LETTER DALET"), (1632, "ARABIC-INDIC DIGIT ZERO"),
  (1633, "ARABIC-INDIC DIGIT ONE"), (1634, "ARABIC-INDIC DIGIT TWO"),
  (1635, "ARABIC-INDIC DIGIT THREE"), (1636, "ARABIC-INDIC DIGIT FOUR"),
  (1637, "ARABIC-INDIC DIGIT FIVE"), (1638, "ARABIC-INDIC DIGIT SIX"),
  (1639, "ARABIC-INDIC DIGIT SEVEN"), (1640, "ARABIC-INDIC DIGIT EIGHT"),
  (1641, "ARABIC-INDIC DIGIT NINE"), (2406, "DEVANAGARI DIGIT ZERO"),
  (2407, "DEVANAGARI DIGIT ONE"), (2408, "DEVANAGARI DIGIT TWO"), (2409, "DEVANAGARI DIGIT THREE"),
  (2410, "DEVANAGARI DIGIT FOUR"), (2411, "DEVANAGARI DIGIT FIVE"), (2412, "DEVANAGARI DIGIT SIX"),
  (2413, "DEVANAGARI DIGIT SEVEN"), (2414, "DEVANAGARI DIGIT EIGHT"),
  (2415, "DEVANAGARI DIGIT NINE"), (7838, "LATIN CAPITAL LETTER SHARP S"), (8194, "EN SPACE"),
  (8195, "EM SPACE"), (8196, "THREE-PER-EM SPACE"), (8197, "FOUR-PER-EM SPACE"),
  (8198, "SIX-PER-EM SPACE"), (8199, "FIGURE SPACE"), (8200, "PUNCTUATION SPACE"),
  (8201, "THIN SPACE"), (8202, "HAIR SPACE"), (8203, "ZERO WIDTH SPACE"), (8203, "ZWSP"),
  (8204, "ZERO WIDTH NON-JOINER"), (8204, "ZWNJ"), (8205, "ZERO WIDTH JOINER"), (8205, "ZWJ"),
  (8206, "LEFT-TO-RIGHT MARK"), (8206, "LRM"), (8207, "RIGHT-TO-LEFT MARK"), (8207, "RLM"),
  (8208, "HYPHEN"), (8209, "NON-BREAKING HYPHEN"), (8210, "FIGURE DASH"), (8211, "EN DASH"),
  (8212, "EM DASH"), (8213, "HORIZONTAL BAR"), (8214, "DOUBLE VERTICAL LINE"),
  (8215, "DOUBLE LOW LINE"), (8216, "LEFT SINGLE QUOTATION MARK"),
  (8217, "RIGHT SINGLE QUOTATION MARK"), (8218, "SINGLE LOW-9 QUOTATION MARK"),
  (8219, "SINGLE HIGH-REVERSED-9 QUOTATION MARK"), (8220, "LEFT DOUBLE QUOTATION MARK"),
  (8221, "RIGHT DOUBLE QUOTATION MARK"), (8222, "DOUBLE LOW-9 QUOTATION MARK"),
  (8223, "DOUBLE HIGH-REVERSED-9 QUOTATION MARK"), (8224, "DAGGER"), (8225, "DOUBLE DAGGER"),
  (8226, "BULLET"), (8227, "TRIANGULAR BULLET"), (8228, "ONE DOT LEADER"), (8229, "TWO DOT LEADER"),
  (8230, "HORIZONTAL ELLIPSIS"), (8231, "HYPHENATION POINT"), (8232, "LINE SEPARATOR"),
  (8233, "PARAGRAPH SEPARATOR"), (8239, "NARROW NO-BREAK SPACE"), (8240, "PER MILLE SIGN"),
  (8242, "PRIME"), (8243, "DOUBLE PRIME"), (8249, "SINGLE LEFT-POINTING ANGLE QUOTATION MARK"),
  (8250, "SINGLE RIGHT-POINTING ANGLE QUOTATION MARK"), (8260, "FRACTION SLASH"),
  (8287, "MEDIUM MATHEMATICAL SPACE"), (8288, "WORD JOINER"), (8288, "WJ"),
  (8304, "SUPERSCRIPT ZERO"), (8308, "SUPERSCRIPT FOUR"), (8309, "SUPERSCRIPT FIVE"),
  (8310, "SUPERSCRIPT SIX"), (8311, "SUPERSCRIPT SEVEN"), (8312, "SUPERSCRIPT EIGHT"),
  (8313, "SUPERSCRIPT NINE"), (8320, "SUBSCRIPT ZERO"), (8321, "SUBSCRIPT ONE"),
  (8322, "SUBSCRIPT TWO"), (8323, "SUBSCRIPT THREE"), (8361, "WON SIGN"), (8362, "NEW SHEQEL SIGN"),
  (8363, "DONG SIGN"), (8364, "EURO SIGN"), (8377, "INDIAN RUPEE SIGN"), (8381, "RUBLE SIGN"),
  (8383, "BITCOIN SIGN"), (8451, "DEGREE CELSIUS"), (8457, "DEGREE FAHRENHEIT"),
  (8467, "SCRIPT SMALL L"), (8470, "NUMERO SIGN"), (8471, "SOUND RECORDING COPYRIGHT"),
  (8472, "SCRIPT CAPITAL P"), (8480, "SERVICE MARK"), (8481, "TELEPHONE SIGN"),
  (8482, "TRADE MARK SIGN"), (8486, "OHM SIGN"), (8490, "KELVIN SIGN"), (8491, "ANGSTROM SIGN"),
  (8592, "LEFTWARDS ARROW"), (8593, "UPWARDS ARROW"), (8594, "RIGHTWARDS ARROW"),
  (8595, "DOWNWARDS ARROW"), (8596, "LEFT RIGHT ARROW"), (8704, "FOR ALL"),
  (8706, "PARTIAL DIFFERENTIAL"), (8707, "THERE EXISTS"), (8709, "EMPTY SET"), (8710, "INCREMENT"),
  (8711, "NABLA"), (8712, "ELEMENT OF"), (8713, "NOT AN ELEMENT OF"), (8719, "N-ARY PRODUCT"),
  (8721, "N-ARY SUMMATION"), (8722, "MINUS SIGN"), (8730, "SQUARE ROOT"), (8734, "INFINITY"),
  (8743, "LOGICAL AND"), (8744, "LOGICAL OR"), (8745, "INTERSECTION"), (8746, "UNION"),
  (8747, "INTEGRAL"), (8776, "ALMOST EQUAL TO"), (8800, "NOT EQUAL TO"), (8801, "IDENTICAL TO"),
  (8804, "LESS-THAN OR EQUAL TO"), (8805, "GREATER-THAN OR EQUAL TO"), (8834, "SUBSET OF"),
  (8835, "SUPERSET OF"), (8901, "DOT OPERATOR"), (9632, "BLACK SQUARE"), (9633, "WHITE SQUARE"),
  (9650, "BLACK UP-POINTING TRIANGLE"), (9675, "WHITE CIRCLE"), (9679, "BLACK CIRCLE"),
  (9728, "BLACK SUN WITH RAYS"), (9729, "CLOUD"), (9730, "UMBRELLA"), (9731, "SNOWMAN"),
  (9732, "COMET"), (9733, "BLACK STAR"), (9734, "WHITE STAR"), (9742, "BLACK TELEPHONE"),
  (9744, "BALLOT BOX"), (9745, "BALLOT BOX WITH CHECK"), (9746, "BALLOT BOX WITH X"),
  (9749, "HOT BEVERAGE"), (9760, "SKULL AND CROSSBONES"), (9762, "RADIOACTIVE SIGN"),
  (9774, "PEACE SYMBOL"), (9775, "YIN YANG"), (9785, "WHITE FROWNING FACE"),
  (9786, "WHITE SMILING FACE"), (9787, "BLACK SMILING FACE"), (9792, "FEMALE SIGN"),
  (9794, "MALE SIGN"), (9824, "BLACK SPADE SUIT"), (9825, "WHITE HEART SUIT"),
  (9826, "WHITE DIAMOND SUIT"), (9827, "BLACK CLUB SUIT"), (9828, "WHITE SPADE SUIT"),
  (9829, "BLACK HEART SUIT"), (9830, "BLACK DIAMOND SUIT"), (9831, "WHITE CLUB SUIT"),
  (9833, "QUARTER NOTE"), (9834, "EIGHTH NOTE"), (9835, "BEAMED EIGHTH NOTES"),
  (9837, "MUSIC FLAT SIGN"), (9839, "MUSIC SHARP SIGN"), (9872, "WHITE FLAG"), (9873, "BLACK FLAG"),
  (9875, "ANCHOR"), (9878, "SCALES"), (9883, "ATOM SYMBOL"), (9888, "WARNING SIGN"),
  (9889, "HIGH VOLTAGE SIGN"), (9986, "BLACK SCISSORS"), (9992, "AIRPLANE"), (9993, "ENVELOPE"),
  (9996, "VICTORY HAND"), (10003, "CHECK MARK"), (10004, "HEAVY CHECK MARK"),
  (10005, "MULTIPLICATION X"), (10006, "HEAVY MULTIPLICATION X"), (10007, "BALLOT X"),
  (10008, "HEAVY BALLOT X"), (10024, "SPARKLES"), (10060, "CROSS MARK"),
  (10084, "HEAVY BLACK HEART"), (10145, "BLACK RIGHTWARDS ARROW"), (12288, "IDEOGRAPHIC SPACE"),
  (12289, "IDEOGRAPHIC COMMA"), (12290, "IDEOGRAPHIC FULL STOP"), (12354, "HIRAGANA LETTER A"),
  (12356, "HIRAGANA LETTER I"), (12450, "KATAKANA LETTER A"), (12452, "KATAKANA LETTER I"),
  (65279, "ZERO WIDTH NO-BREAK SPACE"), (65279, "BYTE ORDER MARK"), (65279, "BOM"),
  (65279, "ZWNBSP"), (65296, "FULLWIDTH DIGIT ZERO"), (65297, "FULLWIDTH DIGIT ONE"),
  (65298, "FULLWIDTH DIGIT TWO"), (65299, "FULLWIDTH DIGIT THREE"), (65300, "FULLWIDTH DIGIT FOUR"),
  (65301, "FULLWIDTH DIGIT FIVE"), (65302, "FULLWIDTH DIGIT SIX"), (65303, "FULLWIDTH DIGIT SEVEN"),
  (65304, "FULLWIDTH DIGIT EIGHT"), (65305, "FULLWIDTH DIGIT NINE"),
  (65313, "FULLWIDTH LATIN CAPITAL LETTER A"), (65314, "FULLWIDTH LATIN CAPITAL LETTER B"),
  (65315, "FULLWIDTH LATIN CAPITAL LETTER C"), (65532, "OBJECT REPLACEMENT CHARACTER"),
  (65533, "REPLACEMENT CHARACTER"), (127757, "EARTH GLOBE EUROPE-AFRICA"),
  (127829, "SLICE OF PIZZA"), (127866, "BEER MUG"), (127881, "PARTY POPPER"), (128008, "CAT"),
  (128013, "SNAKE"), (128021, "DOG"), (128064, "EYES"), (128077, "THUMBS UP SIGN"),
  (128078, "THUMBS DOWN SIGN"), (128148, "BROKEN HEART"), (128153, "BLUE HEART"),
  (128165, "COLLISION SYMBOL"), (128169, "PILE OF POO"), (128175, "HUNDRED POINTS SYMBOL"),
  (128276, "BELL"), (128293, "FIRE"), (128512, "GRINNING FACE"),
  (128513, "GRINNING FACE WITH SMILING EYES"), (128514, "FACE WITH TEARS OF JOY"),
  (128522, "SMILING FACE WITH SMILING EYES"), (128525, "SMILING FACE WITH HEART-SHAPED EYES"),
  (128526, "SMILING FACE WITH SUNGLASSES"), (128545, "POUTING FACE"),
  (128557, "LOUDLY CRYING FACE"), (128578, "SLIGHTLY SMILING FACE"),
  (128591, "PERSON WITH FOLDED HANDS"), (128640, "ROCKET"), (129300, "THINKING FACE"),
  (129302, "ROBOT FACE"), (129315, "ROLLING ON THE FLOOR LAUGHING")]

/-- Names are told apart without regard to case. -/
def charOfName? (name : String) : Option Nat :=
  let name := String.ofList (name.toList.map Char.toUpper)
  (charNames.find? fun e => e.2 == name).map (·.1)

end Formwork.Text
