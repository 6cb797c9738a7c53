import Offside.Text.CodeRange

/-!
# Letters beyond ASCII

The ranges of code points that Unicode 16 calls letters, those of them that
are upper case, and those that are neither upper case, lower case nor
caseless: titlecase digraphs and modifier letters.  Capitals and small
letters alternate in most European blocks, which is why the table of
capitals lists strided ranges.
-/

namespace Offside.Text

/-- Letters of any kind (general categories `Lu`, `Ll`, `Lt`, `Lm`, `Lo`). -/
def letterRanges : List (Nat × Nat) :=
  spaced <|
  [(170, 0), (11, 0), (5, 0), (6, 22), (2, 30), (2, 457), (5, 11), (15, 4), (8, 0), (2, 0),
   (130, 4), (2, 1), (3, 3), (2, 0), (7, 0), (2, 2), (2, 0), (2, 19), (2, 82), (2, 138), (9, 165),
   (2, 37), (3, 0), (7, 40), (72, 26), (5, 3), (46, 42), (36, 1), (2, 98), (2, 0), (16, 1), (8, 1),
   (11, 2), (3, 0), (17, 0), (2, 29), (30, 88), (12, 0), (25, 32), (10, 1), (5, 0), (6, 21), (5, 0),
   (10, 0), (4, 0), (24, 24), (8, 10), (6, 23), (2, 5), (18, 41), (59, 53), (4, 0), (19, 0), (8, 9),
   (16, 15), (5, 7), (3, 1), (3, 21), (2, 6), (2, 0), (4, 3), (4, 0), (17, 0), (14, 1), (2, 2),
   (15, 1), (11, 0), (9, 5), (5, 1), (3, 21), (2, 6), (2, 1), (2, 1), (2, 1), (32, 3), (2, 0),
   (20, 2), (17, 8), (2, 2), (2, 21), (2, 6), (2, 1), (2, 4), (4, 0), (19, 0), (16, 1), (24, 0),
   (12, 7), (3, 1), (3, 21), (2, 6), (2, 1), (2, 4), (4, 0), (31, 1), (2, 2), (16, 0), (18, 0),
   (2, 5), (4, 2), (2, 3), (4, 1), (2, 0), (2, 1), (4, 1), (4, 2), (4, 11), (23, 0), (53, 7),
   (2, 2), (2, 22), (2, 15), (4, 0), (27, 2), (3, 0), (3, 1), (31, 0), (5, 7), (2, 2), (2, 22),
   (2, 9), (2, 4), (4, 0), (32, 1), (2, 1), (16, 1), (18, 8), (2, 2), (2, 40), (3, 0), (17, 0),
   (6, 2), (9, 2), (25, 5), (6, 17), (4, 23), (2, 8), (2, 0), (3, 6), (59, 47), (2, 1), (13, 6),
   (59, 1), (2, 0), (2, 4), (2, 23), (2, 0), (2, 9), (2, 1), (10, 0), (3, 4), (2, 0), (22, 3),
   (33, 0), (64, 7), (2, 35), (28, 4), (116, 42), (21, 0), (17, 5), (5, 3), (4, 0), (4, 1), (8, 2),
   (5, 12), (13, 0), (18, 37), (2, 0), (6, 0), (3, 42), (2, 332), (2, 3), (3, 6), (2, 0), (2, 3),
   (3, 40), (2, 3), (3, 32), (2, 3), (3, 6), (2, 0), (2, 3), (3, 14), (2, 56), (2, 3), (3, 66),
   (38, 15), (17, 85), (3, 5), (4, 619), (3, 16), (2, 25), (6, 74), (7, 7), (8, 17), (14, 18),
   (15, 17), (15, 12), (2, 2), (16, 51), (36, 0), (5, 0), (68, 88), (8, 4), (3, 33), (2, 0),
   (6, 69), (11, 30), (50, 29), (3, 4), (12, 43), (5, 25), (55, 22), (10, 52), (83, 0), (94, 46),
   (18, 7), (55, 29), (14, 1), (11, 43), (27, 35), (42, 2), (11, 35), (3, 10), (6, 42), (3, 2),
   (42, 3), (2, 5), (2, 1), (4, 0), (6, 191), (65, 277), (3, 5), (3, 37), (3, 5), (3, 7), (2, 0),
   (2, 0), (2, 0), (2, 30), (3, 52), (2, 6), (2, 0), (4, 2), (2, 6), (4, 3), (3, 5), (5, 12),
   (6, 2), (2, 6), (117, 0), (14, 0), (17, 12), (102, 0), (5, 0), (3, 9), (2, 0), (4, 4), (7, 0),
   (2, 0), (2, 0), (2, 3), (2, 10), (3, 3), (6, 4), (5, 0), (53, 1), (2684, 228), (7, 3), (4, 1),
   (13, 37), (2, 0), (6, 0), (3, 55), (8, 0), (17, 22), (10, 6), (2, 6), (2, 6), (2, 6), (2, 6),
   (2, 6), (2, 6), (2, 6), (81, 0), (470, 1), (43, 4), (6, 1), (5, 85), (7, 2), (2, 89), (2, 3),
   (6, 42), (2, 93), (18, 31), (49, 15), (513, 6591), (65, 22156), (68, 45), (3, 268), (4, 15),
   (11, 1), (21, 46), (17, 30), (3, 69), (50, 8), (3, 102), (3, 66), (3, 1), (2, 0), (2, 7),
   (22, 15), (2, 2), (2, 3), (2, 22), (30, 51), (15, 49), (63, 5), (4, 0), (2, 1), (12, 27),
   (11, 22), (26, 28), (8, 46), (29, 0), (17, 4), (2, 9), (11, 4), (2, 40), (24, 2), (2, 7),
   (21, 22), (4, 0), (4, 49), (2, 0), (4, 1), (3, 4), (3, 0), (2, 0), (25, 2), (3, 10), (8, 2),
   (13, 5), (3, 5), (3, 5), (10, 6), (2, 6), (2, 42), (2, 13), (7, 114), (30, 11171), (13, 22),
   (5, 48), (8453, 365), (3, 105), (39, 6), (13, 4), (6, 0), (2, 9), (2, 12), (2, 4), (2, 0),
   (2, 1), (2, 1), (2, 107), (34, 362), (19, 63), (3, 53), (41, 11), (117, 4), (2, 134), (37, 25),
   (7, 25), (12, 88), (4, 5), (3, 5), (3, 5), (3, 2), (36, 11), (2, 25), (2, 18), (2, 1), (2, 14),
   (3, 13), (35, 122), (390, 28), (4, 48), (48, 31), (14, 19), (2, 7), (7, 37), (11, 29), (3, 35),
   (5, 7), (49, 157), (19, 35), (5, 35), (5, 39), (9, 51), (13, 10), (2, 14), (2, 6), (2, 1),
   (2, 10), (2, 14), (2, 6), (2, 1), (4, 51), (13, 310), (10, 21), (11, 7), (25, 5), (2, 41),
   (2, 8), (70, 5), (3, 0), (2, 43), (2, 1), (4, 0), (3, 22), (11, 22), (10, 30), (66, 18), (2, 1),
   (11, 21), (11, 25), (71, 55), (7, 1), (65, 0), (16, 3), (2, 2), (2, 28), (43, 28), (4, 28),
   (36, 7), (2, 27), (28, 53), (11, 21), (11, 18), (14, 17), (111, 72), (56, 50), (14, 50),
   (14, 35), (39, 27), (10, 22), (251, 41), (7, 1), (17, 2), (60, 28), (11, 0), (9, 21), (43, 17),
   (47, 20), (28, 22), (13, 52), (58, 1), (3, 0), (14, 44), (33, 24), (27, 35), (30, 0), (3, 0),
   (9, 34), (4, 0), (13, 47), (15, 3), (22, 0), (2, 0), (36, 17), (2, 24), (20, 1), (64, 6), (2, 0),
   (2, 3), (2, 14), (2, 9), (8, 46), (39, 7), (3, 1), (3, 21), (2, 6), (2, 1), (2, 4), (4, 0),
   (19, 0), (13, 4), (31, 9), (2, 0), (3, 0), (2, 37), (2, 0), (26, 0), (2, 0), (45, 52), (19, 3),
   (21, 2), (31, 47), (21, 1), (2, 0), (185, 46), (42, 3), (37, 47), (21, 0), (60, 42), (14, 0),
   (72, 26), (38, 6), (186, 43), (117, 63), (32, 7), (3, 0), (3, 7), (2, 1), (2, 23), (16, 0),
   (2, 0), (95, 7), (3, 38), (17, 0), (2, 0), (29, 0), (11, 39), (8, 0), (22, 0), (12, 45), (20, 0),
   (19, 72), (200, 32), (32, 8), (2, 36), (18, 0), (50, 29), (113, 6), (2, 1), (2, 37), (22, 0),
   (26, 5), (2, 1), (2, 31), (15, 0), (328, 18), (16, 0), (2, 12), (2, 33), (125, 0), (80, 921),
   (231, 195), (2637, 96), (16, 1071), (18, 5), (26, 3994), (6, 582), (6842, 29), (1763, 568),
   (8, 30), (18, 78), (18, 29), (19, 47), (17, 3), (32, 20), (6, 18), (433, 44), (212, 63),
   (129, 74), (6, 0), (67, 12), (65, 1), (2, 0), (29, 6135), (9, 1237), (42, 9), (8936, 3), (2, 6),
   (2, 1), (2, 290), (16, 0), (30, 2), (3, 0), (15, 3), (9, 395), (2309, 106), (6, 12), (4, 8),
   (8, 9), (5991, 84), (2, 70), (2, 1), (3, 0), (3, 1), (3, 3), (2, 11), (2, 0), (2, 6), (2, 64),
   (2, 3), (3, 7), (2, 6), (2, 27), (2, 3), (2, 4), (2, 0), (4, 6), (2, 339), (3, 24), (2, 24),
   (2, 30), (2, 24), (2, 30), (2, 24), (2, 30), (2, 24), (2, 30), (2, 24), (2, 7), (1845, 30),
   (7, 5), (262, 61), (147, 44), (11, 6), (17, 0), (322, 29), (19, 43), (485, 27), (229, 29),
   (3, 0), (496, 6), (2, 3), (2, 1), (2, 14), (2, 196), (60, 67), (8, 0), (1205, 3), (2, 26),
   (2, 1), (2, 0), (3, 0), (2, 9), (2, 3), (2, 0), (2, 0), (7, 0), (5, 0), (2, 0), (2, 0), (2, 2),
   (2, 1), (2, 0), (3, 0), (2, 0), (2, 0), (2, 0), (2, 0), (2, 1), (2, 0), (3, 3), (2, 6), (2, 3),
   (2, 3), (2, 0), (2, 9), (2, 16), (6, 2), (2, 4), (2, 16), (4421, 42719), (33, 4153), (7, 221),
   (3, 5761), (15, 7472), (16, 621), (2467, 541), (1507, 4938), (6, 4191)]

/-- Capital letters (general category `Lu`), as first, last and stride. -/
def capitalRanges : List (Nat × Nat × Nat) :=
  strided 1
   [(192, 22), (2, 6), (154, 1), (2, 0), (2, 0), (4, 1), (2, 0), (2, 1), (2, 2), (3, 3), (2, 1),
   (2, 2), (4, 1), (2, 1), (2, 0), (2, 0), (2, 1), (2, 0), (3, 0), (2, 1), (2, 2), (2, 0), (2, 1),
   (4, 0), (8, 0), (3, 0), (3, 0), (39, 0), (3, 0), (2, 2), (66, 1), (2, 1), (3, 0), (2, 3),
   (298, 0), (2, 0), (4, 0), (9, 0), (7, 0), (2, 2), (2, 0), (2, 1), (2, 16), (2, 8), (36, 0),
   (3, 2), (32, 0), (3, 0), (2, 1), (3, 50), (145, 1), (112, 37), (2890, 37), (2, 0), (6, 0),
   (723, 85), (2196, 0), (7, 42), (3, 2), (585, 7), (9, 5), (11, 7), (9, 7), (9, 5), (27, 7),
   (73, 3), (13, 3), (13, 3), (13, 4), (12, 3), (263, 0), (5, 0), (4, 2), (3, 2), (3, 0), (4, 4),
   (13, 3), (3, 3), (11, 1), (6, 0), (62, 0), (2685, 47), (49, 0), (2, 2), (9, 3), (2, 0), (3, 0),
   (9, 2), (107, 0), (2, 0), (5, 0), (31367, 0), (2, 0), (2, 1), (13, 0), (2, 0), (3, 0), (2, 0),
   (24, 4), (2, 4), (16, 3), (2, 0), (2, 1), (4, 0), (37, 0), (22316, 25), (1222, 39), (137, 35),
   (157, 10), (2, 14), (2, 6), (2, 1), (1771, 50), (158, 21), (2875, 31), (21889, 31), (26017, 25),
   (27, 25), (27, 25), (27, 0), (2, 1), (3, 0), (3, 1), (3, 3), (2, 7), (27, 25), (27, 1), (2, 3),
   (3, 7), (2, 6), (28, 1), (2, 3), (2, 4), (2, 0), (4, 6), (28, 25), (27, 25), (27, 25), (27, 25),
   (27, 25), (27, 25), (31, 24), (34, 24), (34, 24), (34, 24), (34, 24), (34, 0), (4406, 33)] ++
  strided 2
   [(256, 54), (3, 14), (3, 44), (87, 14), (3, 16), (12, 56), (22, 6), (394, 22), (114, 32),
   (10, 52), (5, 10), (3, 94), (6354, 148), (10, 96), (91, 6), (453, 4), (2879, 4), (23, 96),
   (31070, 44), (20, 26), (136, 12), (4, 60), (18, 6), (16, 18), (14, 12), (20, 6)]

/-- Titlecase and modifier letters (general categories `Lt`, `Lm`). -/
def modifierRanges : List (Nat × Nat) :=
  spaced <|
  [(453, 0), (3, 0), (3, 0), (39, 0), (190, 17), (5, 11), (15, 4), (8, 0), (2, 0), (134, 0), (6, 0),
   (479, 0), (231, 0), (165, 1), (270, 1), (5, 0), (32, 0), (10, 0), (4, 0), (161, 0), (168, 0),
   (1237, 0), (128, 0), (566, 0), (1755, 0), (108, 0), (612, 0), (465, 5), (175, 62), (14, 0),
   (35, 36), (457, 7), (9, 7), (9, 7), (13, 0), (16, 0), (48, 0), (117, 0), (14, 0), (17, 12),
   (3040, 1), (242, 0), (192, 0), (470, 0), (44, 4), (6, 0), (98, 1), (94, 2), (28439, 0),
   (1251, 5), (271, 0), (115, 0), (29, 1), (122, 8), (81, 0), (24, 0), (106, 2), (4, 1), (470, 0),
   (23, 0), (138, 0), (109, 0), (22, 1), (104, 3), (10, 0), (21511, 0), (46, 1), (2017, 5), (2, 41),
   (2, 8), (1428, 0), (33, 0), (24017, 3), (509, 2), (41, 1), (551, 12), (65, 1), (2, 0),
   (16397, 3), (2, 6), (2, 1), (12338, 61), (202, 6), (942, 0), (1120, 0)]

/--
Characters with the property `Uppercase` that are no letters: Roman numerals
and circled or squared capitals.
-/
def capitalMarkRanges : List (Nat × Nat) :=
  [(0x2160, 0x216f), (0x24b6, 0x24cf), (0x1f130, 0x1f149), (0x1f150, 0x1f169), (0x1f170, 0x1f189)]

end Offside.Text
