import Offside.Text.CodeRange

/-!
# Characters that quoted text spells by number

The ranges of code points beyond ASCII that have no shape of their own on a
page: controls, format characters, separators, surrogates, private use,
unassigned code points, and the marks that extend the preceding character.
-/

namespace Offside.Text

/--
Code points of the general categories `Cc`, `Cf`, `Cs`, `Co`, `Cn`, `Zl`,
`Zp`, `Zs`, and those with the property `Grapheme_Extend`.
-/
def unprintableRanges : List (Nat × Nat) :=
  spaced <|
  [(128, 32), (13, 0), (595, 111), (9, 1), (7, 3), (8, 0), (2, 0), (21, 0), (225, 6), (167, 0),
   (39, 1), (51, 1), (4, 45), (2, 0), (2, 1), (2, 1), (2, 8), (28, 3), (7, 16), (11, 10), (2, 0),
   (47, 20), (17, 0), (102, 7), (2, 5), (3, 1), (2, 3), (33, 1), (2, 0), (31, 28), (90, 10),
   (2, 13), (44, 8), (8, 2), (25, 3), (2, 8), (2, 2), (2, 6), (16, 0), (26, 4), (2, 0), (12, 4),
   (32, 16), (43, 56), (56, 0), (2, 0), (5, 7), (5, 0), (4, 6), (11, 1), (30, 0), (3, 0), (9, 1),
   (3, 1), (23, 0), (8, 0), (2, 2), (5, 2), (2, 0), (3, 5), (3, 1), (3, 0), (2, 12), (3, 0), (4, 3),
   (25, 4), (2, 0), (7, 3), (3, 1), (23, 0), (8, 0), (3, 0), (3, 0), (3, 3), (4, 23), (5, 0),
   (2, 6), (11, 1), (4, 0), (2, 11), (2, 0), (10, 0), (4, 0), (23, 0), (8, 0), (3, 0), (6, 2),
   (5, 7), (2, 0), (3, 2), (2, 14), (3, 3), (13, 6), (2, 7), (3, 0), (9, 1), (3, 1), (23, 0),
   (8, 0), (3, 0), (6, 2), (2, 1), (2, 5), (3, 1), (3, 14), (3, 0), (4, 3), (19, 10), (2, 0),
   (7, 2), (4, 0), (5, 2), (3, 0), (2, 0), (3, 2), (3, 2), (4, 2), (13, 4), (2, 0), (3, 2), (4, 0),
   (4, 2), (2, 20), (22, 5), (4, 0), (9, 0), (4, 0), (24, 0), (17, 2), (2, 2), (5, 18), (4, 1),
   (2, 1), (3, 3), (11, 6), (11, 0), (12, 0), (4, 0), (24, 0), (11, 0), (6, 2), (3, 1), (2, 0),
   (3, 23), (3, 0), (3, 3), (11, 0), (4, 13), (12, 0), (4, 0), (42, 1), (2, 0), (3, 4), (4, 0),
   (4, 0), (3, 3), (4, 0), (11, 3), (27, 1), (3, 0), (19, 2), (25, 0), (10, 0), (2, 1), (8, 8),
   (3, 5), (8, 6), (11, 1), (4, 11), (49, 0), (3, 10), (9, 7), (14, 36), (3, 0), (2, 0), (6, 0),
   (25, 0), (2, 0), (11, 0), (3, 8), (2, 1), (6, 0), (2, 8), (11, 1), (5, 31), (25, 1), (28, 0),
   (2, 0), (2, 0), (15, 0), (37, 17), (2, 4), (2, 1), (6, 48), (9, 0), (7, 0), (14, 36), (46, 3),
   (2, 5), (2, 1), (3, 1), (26, 1), (5, 2), (17, 3), (14, 0), (3, 1), (7, 0), (16, 0), (41, 0),
   (2, 4), (2, 1), (378, 0), (5, 1), (8, 0), (2, 0), (5, 1), (42, 0), (5, 1), (34, 0), (5, 1),
   (8, 0), (2, 0), (5, 1), (16, 0), (58, 0), (5, 1), (68, 4), (30, 2), (27, 5), (87, 1), (7, 1),
   (641, 0), (29, 2), (90, 6), (19, 12), (20, 2), (3, 8), (19, 13), (14, 0), (4, 14), (53, 1),
   (2, 6), (9, 0), (3, 10), (10, 2), (11, 5), (11, 5), (12, 4), (11, 5), (90, 6), (6, 1), (35, 0),
   (2, 4), (71, 9), (32, 3), (5, 1), (4, 3), (3, 0), (7, 6), (2, 2), (43, 1), (6, 10), (45, 3),
   (27, 5), (12, 2), (58, 1), (3, 2), (57, 0), (2, 8), (2, 0), (3, 7), (7, 12), (11, 5), (11, 5),
   (15, 85), (49, 9), (5, 2), (9, 0), (30, 8), (13, 1), (33, 3), (3, 5), (57, 0), (2, 1), (4, 0),
   (2, 12), (49, 7), (3, 4), (16, 2), (63, 4), (44, 1), (12, 10), (2, 12), (2, 6), (5, 0), (7, 0),
   (4, 1), (2, 4), (193, 63), (279, 1), (7, 1), (39, 1), (7, 1), (9, 0), (2, 0), (2, 0), (2, 0),
   (32, 1), (54, 0), (16, 0), (15, 1), (7, 0), (20, 1), (4, 0), (10, 16), (25, 7), (48, 16), (3, 1),
   (28, 0), (14, 2), (34, 62), (141, 3), (667, 21), (12, 20), (1813, 1), (33, 0), (345, 2), (3, 4),
   (46, 0), (2, 4), (2, 1), (57, 6), (3, 14), (24, 8), (8, 0), (8, 0), (8, 0), (8, 0), (8, 0),
   (8, 0), (8, 0), (8, 32), (95, 33), (27, 0), (90, 11), (215, 25), (17, 0), (42, 5), (17, 0),
   (87, 3), (102, 4), (44, 0), (95, 0), (87, 8), (49, 0), (29294, 2), (56, 8), (349, 19), (48, 3),
   (2, 9), (33, 1), (81, 1), (7, 7), (207, 1), (3, 0), (2, 0), (9, 20), (17, 0), (4, 0), (5, 0),
   (26, 1), (6, 3), (11, 5), (57, 7), (69, 9), (13, 23), (14, 0), (39, 7), (26, 10), (2, 11),
   (31, 5), (49, 0), (3, 3), (3, 1), (3, 0), (14, 0), (12, 3), (8, 0), (26, 0), (42, 5), (3, 1),
   (3, 10), (4, 0), (9, 0), (2, 1), (11, 1), (33, 0), (52, 0), (2, 2), (3, 1), (6, 1), (2, 0),
   (2, 23), (18, 1), (9, 10), (7, 1), (7, 1), (7, 8), (8, 0), (8, 0), (61, 3), (118, 0), (3, 0),
   (5, 2), (11, 5), (11173, 11), (24, 3), (50, 8451), (367, 1), (107, 37), (8, 11), (6, 4), (2, 0),
   (25, 0), (6, 0), (2, 0), (3, 0), (3, 0), (126, 15), (446, 1), (55, 6), (2, 31), (17, 15),
   (11, 21), (36, 0), (20, 0), (5, 3), (6, 0), (136, 3), (158, 1), (32, 2), (7, 1), (7, 1), (7, 1),
   (4, 2), (8, 0), (8, 12), (3, 1), (13, 0), (27, 0), (20, 0), (3, 0), (16, 1), (15, 33), (124, 4),
   (4, 3), (46, 2), (89, 0), (14, 2), (2, 46), (46, 130), (30, 2), (50, 15), (28, 3), (37, 8),
   (31, 4), (39, 9), (31, 0), (38, 3), (15, 41), (159, 1), (11, 5), (37, 3), (37, 3), (41, 7),
   (53, 10), (13, 0), (16, 0), (8, 0), (3, 0), (12, 0), (16, 0), (8, 0), (3, 2), (53, 11), (312, 8),
   (23, 9), (9, 23), (7, 0), (43, 0), (10, 68), (7, 1), (2, 0), (45, 0), (3, 2), (2, 1), (24, 0),
   (73, 7), (10, 47), (20, 0), (3, 4), (34, 2), (28, 4), (2, 63), (57, 3), (21, 1), (48, 14),
   (5, 0), (4, 0), (30, 9), (10, 6), (10, 6), (65, 31), (38, 5), (13, 8), (55, 2), (30, 1), (28, 4),
   (27, 6), (5, 11), (8, 79), (74, 54), (52, 12), (52, 6), (43, 11), (11, 5), (39, 7), (25, 7),
   (3, 207), (32, 0), (43, 2), (2, 1), (3, 15), (4, 58), (41, 7), (23, 10), (10, 21), (19, 3),
   (5, 37), (29, 19), (24, 8), (2, 0), (55, 14), (8, 3), (31, 0), (3, 1), (2, 11), (50, 3), (3, 1),
   (3, 0), (5, 13), (26, 6), (11, 8), (37, 4), (2, 8), (19, 7), (36, 0), (4, 10), (53, 8), (2, 0),
   (9, 3), (3, 0), (17, 0), (21, 10), (19, 0), (29, 2), (3, 3), (7, 0), (3, 62), (8, 0), (2, 0),
   (5, 0), (16, 0), (12, 5), (48, 0), (4, 12), (11, 7), (3, 0), (9, 1), (3, 1), (23, 0), (8, 0),
   (3, 0), (6, 2), (2, 0), (2, 0), (5, 1), (3, 1), (3, 2), (2, 11), (8, 27), (11, 0), (2, 1),
   (2, 0), (39, 0), (2, 0), (3, 14), (2, 0), (3, 2), (2, 0), (4, 0), (3, 38), (57, 7), (3, 2),
   (2, 0), (22, 0), (2, 0), (4, 29), (49, 0), (3, 5), (2, 0), (3, 0), (2, 1), (2, 1), (5, 7),
   (11, 165), (48, 0), (3, 5), (5, 1), (2, 1), (28, 35), (52, 7), (3, 0), (2, 1), (5, 10), (11, 5),
   (14, 18), (44, 0), (2, 0), (3, 7), (3, 5), (11, 5), (21, 27), (28, 2), (2, 0), (3, 3), (2, 8),
   (24, 184), (48, 8), (2, 1), (2, 99), (84, 11), (9, 1), (2, 1), (9, 0), (3, 0), (25, 0), (6, 0),
   (3, 5), (5, 0), (4, 8), (11, 69), (9, 1), (43, 7), (5, 0), (5, 26), (2, 9), (41, 5), (3, 3),
   (9, 8), (2, 5), (3, 2), (47, 12), (2, 1), (10, 12), (74, 6), (11, 181), (35, 13), (11, 5),
   (10, 0), (39, 13), (2, 0), (7, 9), (30, 2), (33, 24), (2, 6), (2, 1), (2, 74), (8, 0), (3, 0),
   (39, 20), (2, 8), (11, 5), (7, 0), (3, 0), (38, 3), (3, 0), (2, 0), (2, 6), (11, 309), (20, 1),
   (5, 8), (16, 0), (37, 7), (3, 2), (24, 85), (2, 14), (51, 12), (924, 101), (112, 0), (6, 10),
   (197, 2635), (100, 12), (1073, 16), (7, 24), (3996, 4), (584, 6840), (31, 11), (4, 2),
   (11, 1733), (570, 6), (32, 0), (11, 3), (82, 0), (11, 5), (31, 6), (2, 9), (49, 6), (16, 9),
   (11, 0), (8, 0), (22, 4), (20, 431), (59, 197), (92, 100), (76, 4), (57, 10), (14, 63), (5, 27),
   (6137, 7), (1239, 40), (11, 8934), (5, 0), (8, 0), (3, 0), (292, 14), (2, 28), (4, 1), (2, 13),
   (5, 7), (397, 2307), (108, 4), (14, 2), (10, 6), (11, 1), (2, 1), (2, 3935), (251, 5),
   (437, 155), (117, 59), (247, 9), (40, 1), (61, 4), (4, 21), (3, 6), (31, 3), (62, 20), (67, 2),
   (2, 121), (21, 11), (21, 11), (88, 8), (26, 134), (86, 0), (72, 0), (3, 1), (2, 1), (3, 1),
   (5, 0), (13, 0), (2, 0), (8, 0), (66, 0), (5, 1), (9, 0), (8, 0), (29, 0), (5, 0), (6, 0),
   (2, 2), (8, 0), (341, 1), (293, 1), (563, 54), (5, 49), (9, 0), (15, 0), (8, 1139), (32, 5),
   (7, 260), (63, 145), (46, 9), (8, 1), (11, 3), (3, 319), (31, 17), (45, 3), (11, 4), (2, 463),
   (29, 3), (11, 213), (31, 1), (12, 3), (2, 479), (8, 0), (5, 0), (3, 0), (16, 0), (198, 1),
   (10, 47), (69, 6), (2, 3), (11, 3), (3, 784), (69, 75), (62, 193), (5, 0), (28, 0), (3, 0),
   (2, 1), (2, 0), (11, 0), (5, 0), (2, 0), (2, 5), (2, 3), (2, 0), (2, 0), (2, 0), (4, 0), (3, 0),
   (2, 1), (2, 0), (2, 0), (2, 0), (2, 0), (2, 0), (3, 0), (2, 1), (5, 0), (8, 0), (5, 0), (5, 0),
   (2, 0), (11, 0), (18, 4), (4, 0), (6, 0), (18, 51), (3, 269), (45, 3), (101, 11), (16, 1),
   (16, 0), (16, 0), (38, 9), (175, 55), (30, 12), (45, 3), (10, 6), (3, 13), (7, 153), (985, 3),
   (18, 2), (14, 2), (120, 3), (96, 5), (13, 3), (2, 14), (13, 3), (57, 7), (11, 5), (41, 7),
   (31, 1), (13, 3), (3, 61), (341, 11), (15, 1), (14, 2), (11, 4), (57, 6), (16, 1), (12, 5),
   (10, 6), (148, 0), (103, 1029), (42721, 31), (4155, 5), (223, 1), (5763, 13), (7474, 14),
   (623, 2465), (543, 1505), (4940, 4), (4193, 908367)]

end Offside.Text
