import Followup.Calendar.Zone

/-! The named time zones and the histories of their offsets from 2017 to the end of 2029. Zones
whose clocks agreed through these years share a history. -/

namespace Followup

namespace History

def europeBerlinTurns : List Int :=
  [1490490000, 1509238800, 1521939600, 1540688400, 1553994000, 1572138000, 1585443600,
   1603587600, 1616893200, 1635642000, 1648342800, 1667091600, 1679792400, 1698541200,
   1711846800, 1729990800, 1743296400, 1761440400, 1774746000, 1792890000, 1806195600,
   1824944400, 1837645200, 1856394000, 1869094800, 1887843600]

def americaSantiagoTurns : List Int :=
  [1494730800, 1502596800, 1526180400, 1534046400, 1554606000, 1567915200, 1586055600,
   1599364800, 1617505200, 1630814400, 1648954800, 1662868800, 1680404400, 1693713600,
   1712458800, 1725768000, 1743908400, 1757217600, 1775358000, 1788667200, 1806807600,
   1820116800, 1838257200, 1851566400, 1870311600, 1883016000]

def pacificAucklandTurns : List Int :=
  [1491055200, 1506175200, 1522504800, 1538229600, 1554559200, 1569679200, 1586008800,
   1601128800, 1617458400, 1632578400, 1648908000, 1664028000, 1680357600, 1695477600,
   1712412000, 1727532000, 1743861600, 1758981600, 1775311200, 1790431200, 1806760800,
   1821880800, 1838210400, 1853330400, 1869660000, 1885384800]

def africaCairo : History :=
  .alternating 120 180
    [1682632800, 1698354000, 1714082400, 1730408400, 1745532000, 1761858000, 1776981600,
     1793307600, 1809036000, 1824757200, 1840485600, 1856206800, 1871935200, 1887656400]

def africaCasablanca : History :=
  .alternating 0 60
    [1490493600, 1495332000, 1498960800, 1509242400, 1521943200, 1526176800, 1529200800,
     1557021600, 1560045600, 1587261600, 1590890400, 1618106400, 1621130400, 1648346400,
     1651975200, 1679191200, 1682215200, 1710036000, 1713060000, 1740276000, 1743904800,
     1771120800, 1774144800, 1801965600, 1804989600, 1832205600, 1835834400, 1863050400,
     1866074400, 1893290400]

def europeBerlin : History :=
  .alternating 60 120 europeBerlinTurns

def africaJuba : History :=
  .alternating 180 120
    [1612126800]

def africaKhartoum : History :=
  .alternating 180 120
    [1509483600]

def africaSaoTome : History :=
  .alternating 0 60
    [1514768400, 1546304400]

def africaWindhoek : History :=
  .alternating 120 60
    [1491091200, 1504400400]

def americaAdak : History :=
  .alternating (-600) (-540)
    [1489320000, 1509879600, 1520769600, 1541329200, 1552219200, 1572778800, 1583668800,
     1604228400, 1615723200, 1636282800, 1647172800, 1667732400, 1678622400, 1699182000,
     1710072000, 1730631600, 1741521600, 1762081200, 1772971200, 1793530800, 1805025600,
     1825585200, 1836475200, 1857034800, 1867924800, 1888484400]

def americaAnchorage : History :=
  .alternating (-540) (-480)
    [1489316400, 1509876000, 1520766000, 1541325600, 1552215600, 1572775200, 1583665200,
     1604224800, 1615719600, 1636279200, 1647169200, 1667728800, 1678618800, 1699178400,
     1710068400, 1730628000, 1741518000, 1762077600, 1772967600, 1793527200, 1805022000,
     1825581600, 1836471600, 1857031200, 1867921200, 1888480800]

def americaAsuncion : History :=
  .alternating (-180) (-240)
    [1490497200, 1506830400, 1521946800, 1538884800, 1553396400, 1570334400, 1584846000,
     1601784000, 1616900400, 1633233600, 1648350000, 1664683200, 1679799600, 1696132800,
     1711249200, 1728187200]

def americaMexicoCity : History :=
  .alternating (-360) (-300)
    [1491120000, 1509260400, 1522569600, 1540710000, 1554624000, 1572159600, 1586073600,
     1603609200, 1617523200, 1635663600, 1648972800, 1667113200]

def americaBoise : History :=
  .alternating (-420) (-360)
    [1489309200, 1509868800, 1520758800, 1541318400, 1552208400, 1572768000, 1583658000,
     1604217600, 1615712400, 1636272000, 1647162000, 1667721600, 1678611600, 1699171200,
     1710061200, 1730620800, 1741510800, 1762070400, 1772960400, 1793520000, 1805014800,
     1825574400, 1836464400, 1857024000, 1867914000, 1888473600]

def americaCampoGrande : History :=
  .alternating (-180) (-240)
    [1487473200, 1508040000, 1518922800, 1541304000, 1550372400]

def americaChicago : History :=
  .alternating (-360) (-300)
    [1489305600, 1509865200, 1520755200, 1541314800, 1552204800, 1572764400, 1583654400,
     1604214000, 1615708800, 1636268400, 1647158400, 1667718000, 1678608000, 1699167600,
     1710057600, 1730617200, 1741507200, 1762066800, 1772956800, 1793516400, 1805011200,
     1825570800, 1836460800, 1857020400, 1867910400, 1888470000]

def americaChihuahua : History :=
  .alternating (-420) (-360)
    [1491123600, 1509264000, 1522573200, 1540713600, 1554627600, 1572163200, 1586077200,
     1603612800, 1617526800, 1635667200, 1648976400]

def americaCiudadJuarez : History :=
  .alternating (-420) (-360)
    [1489309200, 1509868800, 1520758800, 1541318400, 1552208400, 1572768000, 1583658000,
     1604217600, 1615712400, 1636272000, 1647162000, 1669788000, 1678611600, 1699171200,
     1710061200, 1730620800, 1741510800, 1762070400, 1772960400, 1793520000, 1805014800,
     1825574400, 1836464400, 1857024000, 1867914000, 1888473600]

def americaCoyhaique : History :=
  .alternating (-180) (-240)
    [1494730800, 1502596800, 1526180400, 1534046400, 1554606000, 1567915200, 1586055600,
     1599364800, 1617505200, 1630814400, 1648954800, 1662868800, 1680404400, 1693713600,
     1712458800, 1725768000]

def americaDawson : History :=
  .alternating (-480) (-420)
    [1489312800, 1509872400, 1520762400, 1541322000, 1552212000, 1572771600, 1583661600]

def americaNewYork : History :=
  .alternating (-300) (-240)
    [1489302000, 1509861600, 1520751600, 1541311200, 1552201200, 1572760800, 1583650800,
     1604210400, 1615705200, 1636264800, 1647154800, 1667714400, 1678604400, 1699164000,
     1710054000, 1730613600, 1741503600, 1762063200, 1772953200, 1793512800, 1805007600,
     1825567200, 1836457200, 1857016800, 1867906800, 1888466400]

def americaLosAngeles : History :=
  .alternating (-480) (-420)
    [1489312800, 1509872400, 1520762400, 1541322000, 1552212000, 1572771600, 1583661600,
     1604221200, 1615716000, 1636275600, 1647165600, 1667725200, 1678615200, 1699174800,
     1710064800, 1730624400, 1741514400, 1762074000, 1772964000, 1793523600, 1805018400,
     1825578000, 1836468000, 1857027600, 1867917600, 1888477200]

def americaGlaceBay : History :=
  .alternating (-240) (-180)
    [1489298400, 1509858000, 1520748000, 1541307600, 1552197600, 1572757200, 1583647200,
     1604206800, 1615701600, 1636261200, 1647151200, 1667710800, 1678600800, 1699160400,
     1710050400, 1730610000, 1741500000, 1762059600, 1772949600, 1793509200, 1805004000,
     1825563600, 1836453600, 1857013200, 1867903200, 1888462800]

def americaGodthab : History :=
  ⟨.ofMinutes (-180),
    [(1490490000, .ofMinutes (-120)), (1509238800, .ofMinutes (-180)),
     (1521939600, .ofMinutes (-120)), (1540688400, .ofMinutes (-180)),
     (1553994000, .ofMinutes (-120)), (1572138000, .ofMinutes (-180)),
     (1585443600, .ofMinutes (-120)), (1603587600, .ofMinutes (-180)),
     (1616893200, .ofMinutes (-120)), (1635642000, .ofMinutes (-180)),
     (1648342800, .ofMinutes (-120)), (1667091600, .ofMinutes (-180)),
     (1679792400, .ofMinutes (-120)), (1711846800, .ofMinutes (-60)),
     (1729990800, .ofMinutes (-120)), (1743296400, .ofMinutes (-60)),
     (1761440400, .ofMinutes (-120)), (1774746000, .ofMinutes (-60)),
     (1792890000, .ofMinutes (-120)), (1806195600, .ofMinutes (-60)),
     (1824944400, .ofMinutes (-120)), (1837645200, .ofMinutes (-60)),
     (1856394000, .ofMinutes (-120)), (1869094800, .ofMinutes (-60)),
     (1887843600, .ofMinutes (-120))]⟩

def americaGrandTurk : History :=
  .alternating (-240) (-300)
    [1541311200, 1552201200, 1572760800, 1583650800, 1604210400, 1615705200, 1636264800,
     1647154800, 1667714400, 1678604400, 1699164000, 1710054000, 1730613600, 1741503600,
     1762063200, 1772953200, 1793512800, 1805007600, 1825567200, 1836457200, 1857016800,
     1867906800, 1888466400]

def americaHavana : History :=
  .alternating (-300) (-240)
    [1489294800, 1509858000, 1520744400, 1541307600, 1552194000, 1572757200, 1583643600,
     1604206800, 1615698000, 1636261200, 1647147600, 1667710800, 1678597200, 1699160400,
     1710046800, 1730610000, 1741496400, 1762059600, 1772946000, 1793509200, 1805000400,
     1825563600, 1836450000, 1857013200, 1867899600, 1888462800]

def americaMazatlan : History :=
  .alternating (-420) (-360)
    [1491123600, 1509264000, 1522573200, 1540713600, 1554627600, 1572163200, 1586077200,
     1603612800, 1617526800, 1635667200, 1648976400, 1667116800]

def americaMetlakatla : History :=
  .alternating (-540) (-480)
    [1489316400, 1509876000, 1520766000, 1547978400, 1552215600, 1572775200, 1583665200,
     1604224800, 1615719600, 1636279200, 1647169200, 1667728800, 1678618800, 1699178400,
     1710068400, 1730628000, 1741518000, 1762077600, 1772967600, 1793527200, 1805022000,
     1825581600, 1836471600, 1857031200, 1867921200, 1888480800]

def americaMiquelon : History :=
  .alternating (-180) (-120)
    [1489294800, 1509854400, 1520744400, 1541304000, 1552194000, 1572753600, 1583643600,
     1604203200, 1615698000, 1636257600, 1647147600, 1667707200, 1678597200, 1699156800,
     1710046800, 1730606400, 1741496400, 1762056000, 1772946000, 1793505600, 1805000400,
     1825560000, 1836450000, 1857009600, 1867899600, 1888459200]

def americaOjinaga : History :=
  ⟨.ofMinutes (-420),
    [(1489309200, .ofMinutes (-360)), (1509868800, .ofMinutes (-420)),
     (1520758800, .ofMinutes (-360)), (1541318400, .ofMinutes (-420)),
     (1552208400, .ofMinutes (-360)), (1572768000, .ofMinutes (-420)),
     (1583658000, .ofMinutes (-360)), (1604217600, .ofMinutes (-420)),
     (1615712400, .ofMinutes (-360)), (1636272000, .ofMinutes (-420)),
     (1647162000, .ofMinutes (-360)), (1678608000, .ofMinutes (-300)),
     (1699167600, .ofMinutes (-360)), (1710057600, .ofMinutes (-300)),
     (1730617200, .ofMinutes (-360)), (1741507200, .ofMinutes (-300)),
     (1762066800, .ofMinutes (-360)), (1772956800, .ofMinutes (-300)),
     (1793516400, .ofMinutes (-360)), (1805011200, .ofMinutes (-300)),
     (1825570800, .ofMinutes (-360)), (1836460800, .ofMinutes (-300)),
     (1857020400, .ofMinutes (-360)), (1867910400, .ofMinutes (-300)),
     (1888470000, .ofMinutes (-360))]⟩

def americaSantiago : History :=
  .alternating (-180) (-240) americaSantiagoTurns

def americaSaoPaulo : History :=
  .alternating (-120) (-180)
    [1487469600, 1508036400, 1518919200, 1541300400, 1550368800]

def americaScoresbysund : History :=
  ⟨.ofMinutes (-60),
    [(1490490000, .ofMinutes 0), (1509238800, .ofMinutes (-60)), (1521939600, .ofMinutes 0),
     (1540688400, .ofMinutes (-60)), (1553994000, .ofMinutes 0), (1572138000, .ofMinutes (-60)),
     (1585443600, .ofMinutes 0), (1603587600, .ofMinutes (-60)), (1616893200, .ofMinutes 0),
     (1635642000, .ofMinutes (-60)), (1648342800, .ofMinutes 0), (1667091600, .ofMinutes (-60)),
     (1679792400, .ofMinutes 0), (1698541200, .ofMinutes (-60)), (1729990800, .ofMinutes (-120)),
     (1743296400, .ofMinutes (-60)), (1761440400, .ofMinutes (-120)),
     (1774746000, .ofMinutes (-60)), (1792890000, .ofMinutes (-120)),
     (1806195600, .ofMinutes (-60)), (1824944400, .ofMinutes (-120)),
     (1837645200, .ofMinutes (-60)), (1856394000, .ofMinutes (-120)),
     (1869094800, .ofMinutes (-60)), (1887843600, .ofMinutes (-120))]⟩

def americaStJohns : History :=
  .alternating (-210) (-150)
    [1489296600, 1509856200, 1520746200, 1541305800, 1552195800, 1572755400, 1583645400,
     1604205000, 1615699800, 1636259400, 1647149400, 1667709000, 1678599000, 1699158600,
     1710048600, 1730608200, 1741498200, 1762057800, 1772947800, 1793507400, 1805002200,
     1825561800, 1836451800, 1857011400, 1867901400, 1888461000]

def antarcticaCasey : History :=
  .alternating 660 480
    [1520701200, 1538856000, 1552752000, 1570129200, 1583596800, 1601740860, 1615640400,
     1633190460, 1647090000, 1664640060, 1678291200]

def australiaSydney : History :=
  .alternating 660 600
    [1491062400, 1506787200, 1522512000, 1538841600, 1554566400, 1570291200, 1586016000,
     1601740800, 1617465600, 1633190400, 1648915200, 1664640000, 1680364800, 1696089600,
     1712419200, 1728144000, 1743868800, 1759593600, 1775318400, 1791043200, 1806768000,
     1822492800, 1838217600, 1853942400, 1869667200, 1885996800]

def pacificAuckland : History :=
  .alternating 780 720 pacificAucklandTurns

def antarcticaTroll : History :=
  .alternating 0 120 europeBerlinTurns

def antarcticaVostok : History :=
  .alternating 420 300
    [1702839600]

def asiaAlmaty : History :=
  .alternating 360 300
    [1709229600]

def asiaAmman : History :=
  .alternating 120 180
    [1490911200, 1509055200, 1522360800, 1540504800, 1553810400, 1571954400, 1585260000,
     1604008800, 1616709600, 1635458400, 1645740000]

def asiaBeirut : History :=
  .alternating 120 180
    [1490479200, 1509224400, 1521928800, 1540674000, 1553983200, 1572123600, 1585432800,
     1603573200, 1616882400, 1635627600, 1648332000, 1667077200, 1679781600, 1698526800,
     1711836000, 1729976400, 1743285600, 1761426000, 1774735200, 1792875600, 1806184800,
     1824930000, 1837634400, 1856379600, 1869084000, 1887829200]

def asiaDamascus : History :=
  .alternating 120 180
    [1490911200, 1509051600, 1522360800, 1540501200, 1553810400, 1571950800, 1585260000,
     1604005200, 1616709600, 1635454800, 1648159200]

def asiaFamagusta : History :=
  .alternating 180 120
    [1509238800, 1521939600, 1540688400, 1553994000, 1572138000, 1585443600, 1603587600,
     1616893200, 1635642000, 1648342800, 1667091600, 1679792400, 1698541200, 1711846800,
     1729990800, 1743296400, 1761440400, 1774746000, 1792890000, 1806195600, 1824944400,
     1837645200, 1856394000, 1869094800, 1887843600]

def asiaGaza : History :=
  .alternating 120 180
    [1490396400, 1509141600, 1521846000, 1540591200, 1553810400, 1572037200, 1585346400,
     1603490400, 1616796000, 1635458400, 1648332000, 1666998000, 1682726400, 1698447600,
     1713571200, 1729897200, 1744416000, 1761346800, 1774656000, 1792796400, 1806105600,
     1824850800, 1837555200, 1856300400, 1869004800, 1887750000]

def asiaJerusalem : History :=
  .alternating 120 180
    [1490313600, 1509231600, 1521763200, 1540681200, 1553817600, 1572130800, 1585267200,
     1603580400, 1616716800, 1635634800, 1648166400, 1667084400, 1679616000, 1698534000,
     1711670400, 1729983600, 1743120000, 1761433200, 1774569600, 1792882800, 1806019200,
     1824937200, 1837468800, 1856386800, 1868918400, 1887836400]

def europeAthens : History :=
  .alternating 120 180 europeBerlinTurns

def asiaPyongyang : History :=
  .alternating 510 540
    [1525446000]

def asiaQyzylorda : History :=
  .alternating 360 300
    [1545328800]

def asiaTehran : History :=
  .alternating 210 270
    [1490128200, 1506022200, 1521664200, 1537558200, 1553200200, 1569094200, 1584736200,
     1600630200, 1616358600, 1632252600, 1647894600, 1663788600]

def atlanticAzores : History :=
  .alternating (-60) 0 europeBerlinTurns

def europeLondon : History :=
  .alternating 0 60 europeBerlinTurns

def australiaAdelaide : History :=
  .alternating 630 570
    [1491064200, 1506789000, 1522513800, 1538843400, 1554568200, 1570293000, 1586017800,
     1601742600, 1617467400, 1633192200, 1648917000, 1664641800, 1680366600, 1696091400,
     1712421000, 1728145800, 1743870600, 1759595400, 1775320200, 1791045000, 1806769800,
     1822494600, 1838219400, 1853944200, 1869669000, 1885998600]

def australiaLHI : History :=
  .alternating 660 630
    [1491058800, 1506785400, 1522508400, 1538839800, 1554562800, 1570289400, 1586012400,
     1601739000, 1617462000, 1633188600, 1648911600, 1664638200, 1680361200, 1696087800,
     1712415600, 1728142200, 1743865200, 1759591800, 1775314800, 1791041400, 1806764400,
     1822491000, 1838214000, 1853940600, 1869663600, 1885995000]

def chileEasterIsland : History :=
  .alternating (-300) (-360) americaSantiagoTurns

def europeChisinau : History :=
  .alternating 120 180
    [1490486400, 1509235200, 1521936000, 1540684800, 1553990400, 1572134400, 1585440000,
     1603584000, 1616889600, 1635638400, 1648342800, 1667091600, 1679792400, 1698541200,
     1711846800, 1729990800, 1743296400, 1761440400, 1774746000, 1792890000, 1806195600,
     1824944400, 1837645200, 1856394000, 1869094800, 1887843600]

def europeVolgograd : History :=
  .alternating 180 240
    [1540681200, 1609020000]

def pacificChatham : History :=
  .alternating 825 765 pacificAucklandTurns

def pacificApia : History :=
  .alternating 840 780
    [1491055200, 1506175200, 1522504800, 1538229600, 1554559200, 1569679200, 1586008800,
     1601128800, 1617458400]

def pacificFiji : History :=
  .alternating 780 720
    [1484402400, 1509804000, 1515852000, 1541253600, 1547301600, 1573308000, 1578751200,
     1608386400, 1610805600]

def pacificNorfolk : History :=
  .alternating 660 720
    [1570287600, 1586012400, 1601737200, 1617462000, 1633186800, 1648911600, 1664636400,
     1680361200, 1696086000, 1712415600, 1728140400, 1743865200, 1759590000, 1775314800,
     1791039600, 1806764400, 1822489200, 1838214000, 1853938800, 1869663600, 1885993200]

def pacificTongatapu : History :=
  .alternating 840 780
    [1484398800]

end History

namespace Zone

def steady : List (Int × List String) := [
  (-720, ["Etc/GMT+12"]),
  (-660, ["Etc/GMT+11", "Pacific/Midway", "Pacific/Niue", "Pacific/Pago_Pago", "Pacific/Samoa",
    "US/Samoa"]),
  (-600, ["Etc/GMT+10", "HST", "Pacific/Honolulu", "Pacific/Johnston", "Pacific/Rarotonga",
    "Pacific/Tahiti", "US/Hawaii"]),
  (-570, ["Pacific/Marquesas"]),
  (-540, ["Etc/GMT+9", "Pacific/Gambier"]),
  (-480, ["Etc/GMT+8", "Pacific/Pitcairn"]),
  (-420, ["America/Creston", "America/Dawson_Creek", "America/Fort_Nelson",
    "America/Hermosillo", "America/Phoenix", "Etc/GMT+7", "MST", "US/Arizona"]),
  (-360, ["America/Belize", "America/Costa_Rica", "America/El_Salvador", "America/Guatemala",
    "America/Managua", "America/Regina", "America/Swift_Current", "America/Tegucigalpa",
    "Canada/Saskatchewan", "Etc/GMT+6", "Pacific/Galapagos"]),
  (-300, ["America/Atikokan", "America/Bogota", "America/Cancun", "America/Cayman",
    "America/Coral_Harbour", "America/Eirunepe", "America/Guayaquil", "America/Jamaica",
    "America/Lima", "America/Panama", "America/Porto_Acre", "America/Rio_Branco", "Brazil/Acre",
    "EST", "Etc/GMT+5", "Jamaica"]),
  (-240, ["America/Anguilla", "America/Antigua", "America/Aruba", "America/Barbados",
    "America/Blanc-Sablon", "America/Boa_Vista", "America/Caracas", "America/Curacao",
    "America/Dominica", "America/Grenada", "America/Guadeloupe", "America/Guyana",
    "America/Kralendijk", "America/La_Paz", "America/Lower_Princes", "America/Manaus",
    "America/Marigot", "America/Martinique", "America/Montserrat", "America/Port_of_Spain",
    "America/Porto_Velho", "America/Puerto_Rico", "America/Santo_Domingo",
    "America/St_Barthelemy", "America/St_Kitts", "America/St_Lucia", "America/St_Thomas",
    "America/St_Vincent", "America/Tortola", "America/Virgin", "Brazil/West", "Etc/GMT+4"]),
  (-180, ["America/Araguaina", "America/Argentina/Buenos_Aires", "America/Argentina/Catamarca",
    "America/Argentina/ComodRivadavia", "America/Argentina/Cordoba", "America/Argentina/Jujuy",
    "America/Argentina/La_Rioja", "America/Argentina/Mendoza", "America/Argentina/Rio_Gallegos",
    "America/Argentina/Salta", "America/Argentina/San_Juan", "America/Argentina/San_Luis",
    "America/Argentina/Tucuman", "America/Argentina/Ushuaia", "America/Bahia", "America/Belem",
    "America/Buenos_Aires", "America/Catamarca", "America/Cayenne", "America/Cordoba",
    "America/Fortaleza", "America/Jujuy", "America/Maceio", "America/Mendoza",
    "America/Montevideo", "America/Paramaribo", "America/Punta_Arenas", "America/Recife",
    "America/Rosario", "America/Santarem", "Antarctica/Palmer", "Antarctica/Rothera",
    "Atlantic/Stanley", "Etc/GMT+3"]),
  (-120, ["America/Noronha", "Atlantic/South_Georgia", "Brazil/DeNoronha", "Etc/GMT+2"]),
  (-60, ["Atlantic/Cape_Verde", "Etc/GMT+1"]),
  (0, ["Africa/Abidjan", "Africa/Accra", "Africa/Bamako", "Africa/Banjul", "Africa/Bissau",
    "Africa/Conakry", "Africa/Dakar", "Africa/Freetown", "Africa/Lome", "Africa/Monrovia",
    "Africa/Nouakchott", "Africa/Ouagadougou", "Africa/Timbuktu", "America/Danmarkshavn",
    "Atlantic/Reykjavik", "Atlantic/St_Helena", "Etc/GMT", "Etc/GMT+0", "Etc/GMT-0", "Etc/GMT0",
    "Etc/Greenwich", "Etc/UCT", "Etc/UTC", "Etc/Universal", "Etc/Zulu", "GMT", "GMT+0", "GMT-0",
    "GMT0", "Greenwich", "Iceland", "UCT", "UTC", "Universal", "Zulu"]),
  (60, ["Africa/Algiers", "Africa/Bangui", "Africa/Brazzaville", "Africa/Douala",
    "Africa/Kinshasa", "Africa/Lagos", "Africa/Libreville", "Africa/Luanda", "Africa/Malabo",
    "Africa/Ndjamena", "Africa/Niamey", "Africa/Porto-Novo", "Africa/Tunis", "Etc/GMT-1"]),
  (120, ["Africa/Blantyre", "Africa/Bujumbura", "Africa/Gaborone", "Africa/Harare",
    "Africa/Johannesburg", "Africa/Kigali", "Africa/Lubumbashi", "Africa/Lusaka",
    "Africa/Maputo", "Africa/Maseru", "Africa/Mbabane", "Africa/Tripoli", "Etc/GMT-2",
    "Europe/Kaliningrad", "Libya"]),
  (180, ["Africa/Addis_Ababa", "Africa/Asmara", "Africa/Asmera", "Africa/Dar_es_Salaam",
    "Africa/Djibouti", "Africa/Kampala", "Africa/Mogadishu", "Africa/Nairobi",
    "Antarctica/Syowa", "Asia/Aden", "Asia/Baghdad", "Asia/Bahrain", "Asia/Istanbul",
    "Asia/Kuwait", "Asia/Qatar", "Asia/Riyadh", "Etc/GMT-3", "Europe/Istanbul", "Europe/Kirov",
    "Europe/Minsk", "Europe/Moscow", "Europe/Simferopol", "Indian/Antananarivo", "Indian/Comoro",
    "Indian/Mayotte", "Turkey", "W-SU"]),
  (240, ["Asia/Baku", "Asia/Dubai", "Asia/Muscat", "Asia/Tbilisi", "Asia/Yerevan", "Etc/GMT-4",
    "Europe/Astrakhan", "Europe/Samara", "Europe/Saratov", "Europe/Ulyanovsk", "Indian/Mahe",
    "Indian/Mauritius", "Indian/Reunion"]),
  (270, ["Asia/Kabul"]),
  (300, ["Antarctica/Mawson", "Asia/Aqtau", "Asia/Aqtobe", "Asia/Ashgabat", "Asia/Ashkhabad",
    "Asia/Atyrau", "Asia/Dushanbe", "Asia/Karachi", "Asia/Oral", "Asia/Samarkand",
    "Asia/Tashkent", "Asia/Yekaterinburg", "Etc/GMT-5", "Indian/Kerguelen", "Indian/Maldives"]),
  (330, ["Asia/Calcutta", "Asia/Colombo", "Asia/Kolkata"]),
  (345, ["Asia/Kathmandu", "Asia/Katmandu"]),
  (360, ["Asia/Bishkek", "Asia/Dacca", "Asia/Dhaka", "Asia/Kashgar", "Asia/Omsk",
    "Asia/Thimbu", "Asia/Thimphu", "Asia/Urumqi", "Etc/GMT-6", "Indian/Chagos"]),
  (390, ["Asia/Rangoon", "Asia/Yangon", "Indian/Cocos"]),
  (420, ["Antarctica/Davis", "Asia/Bangkok", "Asia/Barnaul", "Asia/Ho_Chi_Minh", "Asia/Hovd",
    "Asia/Jakarta", "Asia/Krasnoyarsk", "Asia/Novokuznetsk", "Asia/Novosibirsk",
    "Asia/Phnom_Penh", "Asia/Pontianak", "Asia/Saigon", "Asia/Tomsk", "Asia/Vientiane",
    "Etc/GMT-7", "Indian/Christmas"]),
  (480, ["Asia/Brunei", "Asia/Choibalsan", "Asia/Chongqing", "Asia/Chungking", "Asia/Harbin",
    "Asia/Hong_Kong", "Asia/Irkutsk", "Asia/Kuala_Lumpur", "Asia/Kuching", "Asia/Macao",
    "Asia/Macau", "Asia/Makassar", "Asia/Manila", "Asia/Shanghai", "Asia/Singapore",
    "Asia/Taipei", "Asia/Ujung_Pandang", "Asia/Ulaanbaatar", "Asia/Ulan_Bator",
    "Australia/Perth", "Australia/West", "Etc/GMT-8", "Hongkong", "PRC", "ROC", "Singapore"]),
  (525, ["Australia/Eucla"]),
  (540, ["Asia/Chita", "Asia/Dili", "Asia/Jayapura", "Asia/Khandyga", "Asia/Seoul",
    "Asia/Tokyo", "Asia/Yakutsk", "Etc/GMT-9", "Japan", "Pacific/Palau", "ROK"]),
  (570, ["Australia/Darwin", "Australia/North"]),
  (600, ["Antarctica/DumontDUrville", "Asia/Ust-Nera", "Asia/Vladivostok",
    "Australia/Brisbane", "Australia/Lindeman", "Australia/Queensland", "Etc/GMT-10",
    "Pacific/Chuuk", "Pacific/Guam", "Pacific/Port_Moresby", "Pacific/Saipan", "Pacific/Truk",
    "Pacific/Yap"]),
  (660, ["Asia/Magadan", "Asia/Sakhalin", "Asia/Srednekolymsk", "Etc/GMT-11",
    "Pacific/Bougainville", "Pacific/Efate", "Pacific/Guadalcanal", "Pacific/Kosrae",
    "Pacific/Noumea", "Pacific/Pohnpei", "Pacific/Ponape"]),
  (720, ["Asia/Anadyr", "Asia/Kamchatka", "Etc/GMT-12", "Kwajalein", "Pacific/Funafuti",
    "Pacific/Kwajalein", "Pacific/Majuro", "Pacific/Nauru", "Pacific/Tarawa", "Pacific/Wake",
    "Pacific/Wallis"]),
  (780, ["Etc/GMT-13", "Pacific/Enderbury", "Pacific/Fakaofo", "Pacific/Kanton"]),
  (840, ["Etc/GMT-14", "Pacific/Kiritimati"])]

def turning : List (History × List String) := [
  (.africaCairo, ["Africa/Cairo", "Egypt"]),
  (.africaCasablanca, ["Africa/Casablanca", "Africa/El_Aaiun"]),
  (.europeBerlin, ["Africa/Ceuta", "Arctic/Longyearbyen", "Atlantic/Jan_Mayen", "CET",
    "Europe/Amsterdam", "Europe/Andorra", "Europe/Belgrade", "Europe/Berlin", "Europe/Bratislava",
    "Europe/Brussels", "Europe/Budapest", "Europe/Busingen", "Europe/Copenhagen",
    "Europe/Gibraltar", "Europe/Ljubljana", "Europe/Luxembourg", "Europe/Madrid", "Europe/Malta",
    "Europe/Monaco", "Europe/Oslo", "Europe/Paris", "Europe/Podgorica", "Europe/Prague",
    "Europe/Rome", "Europe/San_Marino", "Europe/Sarajevo", "Europe/Skopje", "Europe/Stockholm",
    "Europe/Tirane", "Europe/Vaduz", "Europe/Vatican", "Europe/Vienna", "Europe/Warsaw",
    "Europe/Zagreb", "Europe/Zurich", "MET", "Poland"]),
  (.africaJuba, ["Africa/Juba"]),
  (.africaKhartoum, ["Africa/Khartoum"]),
  (.africaSaoTome, ["Africa/Sao_Tome"]),
  (.africaWindhoek, ["Africa/Windhoek"]),
  (.americaAdak, ["America/Adak", "America/Atka", "US/Aleutian"]),
  (.americaAnchorage, ["America/Anchorage", "America/Juneau", "America/Nome", "America/Sitka",
    "America/Yakutat", "US/Alaska"]),
  (.americaAsuncion, ["America/Asuncion"]),
  (.americaMexicoCity, ["America/Bahia_Banderas", "America/Merida", "America/Mexico_City",
    "America/Monterrey", "Mexico/General"]),
  (.americaBoise, ["America/Boise", "America/Cambridge_Bay", "America/Denver",
    "America/Edmonton", "America/Inuvik", "America/Shiprock", "America/Yellowknife",
    "Canada/Mountain", "MST7MDT", "Navajo", "US/Mountain"]),
  (.americaCampoGrande, ["America/Campo_Grande", "America/Cuiaba"]),
  (.americaChicago, ["America/Chicago", "America/Indiana/Knox", "America/Indiana/Tell_City",
    "America/Knox_IN", "America/Matamoros", "America/Menominee", "America/North_Dakota/Beulah",
    "America/North_Dakota/Center", "America/North_Dakota/New_Salem", "America/Rainy_River",
    "America/Rankin_Inlet", "America/Resolute", "America/Winnipeg", "CST6CDT", "Canada/Central",
    "US/Central", "US/Indiana-Starke"]),
  (.americaChihuahua, ["America/Chihuahua"]),
  (.americaCiudadJuarez, ["America/Ciudad_Juarez"]),
  (.americaCoyhaique, ["America/Coyhaique"]),
  (.americaDawson, ["America/Dawson", "America/Whitehorse", "Canada/Yukon"]),
  (.americaNewYork, ["America/Detroit", "America/Fort_Wayne", "America/Indiana/Indianapolis",
    "America/Indiana/Marengo", "America/Indiana/Petersburg", "America/Indiana/Vevay",
    "America/Indiana/Vincennes", "America/Indiana/Winamac", "America/Indianapolis",
    "America/Iqaluit", "America/Kentucky/Louisville", "America/Kentucky/Monticello",
    "America/Louisville", "America/Montreal", "America/Nassau", "America/New_York",
    "America/Nipigon", "America/Pangnirtung", "America/Port-au-Prince", "America/Thunder_Bay",
    "America/Toronto", "Canada/Eastern", "EST5EDT", "US/East-Indiana", "US/Eastern", "US/Michigan"]),
  (.americaLosAngeles, ["America/Ensenada", "America/Los_Angeles", "America/Santa_Isabel",
    "America/Tijuana", "America/Vancouver", "Canada/Pacific", "Mexico/BajaNorte", "PST8PDT",
    "US/Pacific"]),
  (.americaGlaceBay, ["America/Glace_Bay", "America/Goose_Bay", "America/Halifax",
    "America/Moncton", "America/Thule", "Atlantic/Bermuda", "Canada/Atlantic"]),
  (.americaGodthab, ["America/Godthab", "America/Nuuk"]),
  (.americaGrandTurk, ["America/Grand_Turk"]),
  (.americaHavana, ["America/Havana", "Cuba"]),
  (.americaMazatlan, ["America/Mazatlan", "Mexico/BajaSur"]),
  (.americaMetlakatla, ["America/Metlakatla"]),
  (.americaMiquelon, ["America/Miquelon"]),
  (.americaOjinaga, ["America/Ojinaga"]),
  (.americaSantiago, ["America/Santiago", "Chile/Continental"]),
  (.americaSaoPaulo, ["America/Sao_Paulo", "Brazil/East"]),
  (.americaScoresbysund, ["America/Scoresbysund"]),
  (.americaStJohns, ["America/St_Johns", "Canada/Newfoundland"]),
  (.antarcticaCasey, ["Antarctica/Casey"]),
  (.australiaSydney, ["Antarctica/Macquarie", "Australia/ACT", "Australia/Canberra",
    "Australia/Currie", "Australia/Hobart", "Australia/Melbourne", "Australia/NSW",
    "Australia/Sydney", "Australia/Tasmania", "Australia/Victoria"]),
  (.pacificAuckland, ["Antarctica/McMurdo", "Antarctica/South_Pole", "NZ", "Pacific/Auckland"]),
  (.antarcticaTroll, ["Antarctica/Troll"]),
  (.antarcticaVostok, ["Antarctica/Vostok"]),
  (.asiaAlmaty, ["Asia/Almaty", "Asia/Qostanay"]),
  (.asiaAmman, ["Asia/Amman"]),
  (.asiaBeirut, ["Asia/Beirut"]),
  (.asiaDamascus, ["Asia/Damascus"]),
  (.asiaFamagusta, ["Asia/Famagusta"]),
  (.asiaGaza, ["Asia/Gaza", "Asia/Hebron"]),
  (.asiaJerusalem, ["Asia/Jerusalem", "Asia/Tel_Aviv", "Israel"]),
  (.europeAthens, ["Asia/Nicosia", "EET", "Europe/Athens", "Europe/Bucharest", "Europe/Helsinki",
    "Europe/Kiev", "Europe/Kyiv", "Europe/Mariehamn", "Europe/Nicosia", "Europe/Riga",
    "Europe/Sofia", "Europe/Tallinn", "Europe/Uzhgorod", "Europe/Vilnius", "Europe/Zaporozhye"]),
  (.asiaPyongyang, ["Asia/Pyongyang"]),
  (.asiaQyzylorda, ["Asia/Qyzylorda"]),
  (.asiaTehran, ["Asia/Tehran", "Iran"]),
  (.atlanticAzores, ["Atlantic/Azores"]),
  (.europeLondon, ["Atlantic/Canary", "Atlantic/Faeroe", "Atlantic/Faroe", "Atlantic/Madeira",
    "Eire", "Europe/Belfast", "Europe/Dublin", "Europe/Guernsey", "Europe/Isle_of_Man",
    "Europe/Jersey", "Europe/Lisbon", "Europe/London", "GB", "GB-Eire", "Portugal", "WET"]),
  (.australiaAdelaide, ["Australia/Adelaide", "Australia/Broken_Hill", "Australia/South",
    "Australia/Yancowinna"]),
  (.australiaLHI, ["Australia/LHI", "Australia/Lord_Howe"]),
  (.chileEasterIsland, ["Chile/EasterIsland", "Pacific/Easter"]),
  (.europeChisinau, ["Europe/Chisinau", "Europe/Tiraspol"]),
  (.europeVolgograd, ["Europe/Volgograd"]),
  (.pacificChatham, ["NZ-CHAT", "Pacific/Chatham"]),
  (.pacificApia, ["Pacific/Apia"]),
  (.pacificFiji, ["Pacific/Fiji"]),
  (.pacificNorfolk, ["Pacific/Norfolk"]),
  (.pacificTongatapu, ["Pacific/Tongatapu"])]

def historyOf? (name : String) : Option History :=
  match turning.find? fun (_, names) => names.contains name with
  | some (history, _) => some history
  | none => (steady.find? fun (_, names) => names.contains name).map fun (minutes, _) =>
      ⟨.ofMinutes minutes, []⟩

def ofName? (name : String) : Option Zone := (historyOf? name).map (named name)

end Zone

end Followup
